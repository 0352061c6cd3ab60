import PlantManager.Attendance.ProjectionReference
import PlantManager.Forklift.Completions

/-! # Totals that are kept

Runs that write while others do can put an older fetch over a newer one, a backfill can start in the
middle of a day and overwrite its total with a part of it (`Forklift.total_lowered`),
and a snapshot can store events of later days without their totals. If runs write in turn, and none
of them has part of a day (`Forklift.InOrder`), totals and coverage never go back, and
the total of a covered day is the number of its events (`Forklift.totals_kept`).
-/

namespace PlantManager.Forklift

open Transition

variable (site : Site)

/-- Totals and coverage are not lower. -/
structure NoLess (before after : Tables) : Prop where
  totals : ∀ day row, before.calls day = some row →
    ∃ later, after.calls day = some later ∧ row.totalCalls ≤ later.totalCalls
  coverage : ∀ day coverage, before.coverage day = some coverage →
    ∃ later, after.coverage day = some later ∧ coverage.coveredThrough ≤ later.coveredThrough

/-- The total of each covered day is the number of its events. -/
def Consistent (tables : Tables) : Prop :=
  ∀ day, (tables.coverage day).isSome →
    ∃ row, tables.calls day = some row ∧ row.totalCalls = eventCount site tables.events day

/-- What a run fetched is not a part of a day: a snapshot has no item of another covered day that is
not stored, and a backfill has all items of its first day. -/
def Whole (world : World) (held : ℕ) (items : List Item) : Kind → Prop
  | .snapshotToday day => ∀ item ∈ items, item.day site ≠ day →
      (world.tables.coverage (item.day site)).isSome →
        item.id ∈ world.tables.events.map CompletionEvent.eventId
  | .backfillHistory since => ∀ item ∈ world.feed.take held,
      item.day site = site.calendar.dayOf since → since ≤ item.createdAt

/-- When the newest run that wrote read the clock, and how many items it saw. -/
def World.newest (world : World) : ℤ × ℕ := world.history.head?.getD (0, 0)

/-- Runs write in turn, in the order in which they read the clock and fetched, and do not fail
once they write. -/
def InOrder (world : World) : Action → Prop
  | .transform run => ∀ kind fetchedThrough held names items,
      world.runs run = some (.fetched kind fetchedThrough held names items) →
        (∀ other statements, world.runs other ≠ some (.writing statements)) ∧
          world.newest.1 ≤ fetchedThrough ∧ world.newest.2 ≤ held ∧ Whole site world held items kind
  | .fail run => ∀ statements, world.runs run ≠ some (.writing statements)
  | _ => True

/-! ## Events -/

/-- The event is of an item. -/
def InFeed (feed : List Item) (event : CompletionEvent) : Prop :=
  ∃ item ∈ feed, event.eventId = item.id ∧ event.createdAt = item.createdAt

structure Stored (feed : List Item) (events : List CompletionEvent) : Prop where
  ids : (events.map CompletionEvent.eventId).Nodup
  inFeed : ∀ event ∈ events, InFeed feed event

variable {event : CompletionEvent}

theorem InFeed.mono {feed later : List Item} (inFeed : InFeed feed event)
    (grows : ∀ item ∈ feed, item ∈ later) : InFeed later event := by
  obtain ⟨item, member, same⟩ := inFeed
  exact ⟨item, grows item member, same⟩

theorem upsertEvent_ids (events : List CompletionEvent) (event : CompletionEvent) :
    (upsertEvent events event).map CompletionEvent.eventId =
      if event.eventId ∈ events.map CompletionEvent.eventId then
        events.map CompletionEvent.eventId
      else events.map CompletionEvent.eventId ++ [event.eventId] := by
  unfold upsertEvent
  split
  · rw [List.map_map]
    refine List.map_congr_left fun held _ => ?_
    rw [Function.comp_apply]
    split
    · exact (‹held.eventId = event.eventId›).symm
    · rfl
  · rw [List.map_append, List.map_singleton]

theorem mem_upsertEvent_ids {events : List CompletionEvent} {id : String} :
    id ∈ (upsertEvent events event).map CompletionEvent.eventId ↔
      id ∈ events.map CompletionEvent.eventId ∨ id = event.eventId := by
  rw [upsertEvent_ids]
  split
  · constructor
    · exact .inl
    · rintro (member | rfl)
      · exact member
      · assumption
  · rw [List.mem_append, List.mem_singleton]

theorem Stored.upsertEvent {feed : List Item} {events : List CompletionEvent}
    {event : CompletionEvent} (stored : Stored feed events) (inFeed : InFeed feed event) :
    Stored feed (upsertEvent events event) where
  ids := by
    rw [upsertEvent_ids]
    split
    · exact stored.ids
    · refine List.nodup_append.mpr ⟨stored.ids, List.nodup_singleton _, ?_⟩
      rintro id member _ last rfl
      exact absurd (List.mem_singleton.mp last ▸ member) ‹_›
  inFeed := by
    intro held member
    unfold Forklift.upsertEvent at member
    split at member
    · obtain ⟨before, present, rfl⟩ := List.mem_map.mp member
      split
      · exact inFeed
      · exact stored.inFeed before present
    · rcases List.mem_append.mp member with member | member
      · exact stored.inFeed held member
      · exact List.mem_singleton.mp member ▸ inFeed

theorem mem_upsertAll_ids {added events : List CompletionEvent} {id : String} :
    id ∈ (added.foldl upsertEvent events).map CompletionEvent.eventId ↔
      id ∈ events.map CompletionEvent.eventId ∨ id ∈ added.map CompletionEvent.eventId := by
  induction added generalizing events with
  | nil => simp
  | cons event rest ih =>
      rw [List.foldl_cons, ih, mem_upsertEvent_ids, List.map_cons, List.mem_cons, or_assoc]

theorem Stored.upsertAll {feed : List Item} {added events : List CompletionEvent}
    (stored : Stored feed events) (inFeed : ∀ event ∈ added, InFeed feed event) :
    Stored feed (added.foldl Forklift.upsertEvent events) := by
  induction added generalizing events with
  | nil => exact stored
  | cons event rest ih =>
      exact ih (stored.upsertEvent (inFeed event List.mem_cons_self))
        fun later member => inFeed later (List.mem_cons_of_mem _ member)

theorem completionEvents_ids {names : Names} {items : List Item} {id : String} :
    id ∈ (completionEvents names items).map CompletionEvent.eventId ↔ id ∈ items.map Item.id := by
  have sorted : id ∈ (completionEvents names items).map CompletionEvent.eventId ↔
      id ∈ ((items.map (completionEvent names)).foldl upsertEvent []).map
        CompletionEvent.eventId :=
    ((List.perm_insertionSort _ _).map _).mem_iff
  rw [sorted, mem_upsertAll_ids, List.map_map]
  simp [Function.comp_def, completionEvent]

theorem completionEvents_inFeed {names : Names} {items : List Item}
    (member : event ∈ completionEvents names items) : InFeed items event := by
  have stored : Stored items ((items.map (completionEvent names)).foldl upsertEvent []) := by
    refine Stored.upsertAll ⟨List.nodup_nil, List.forall_mem_nil _⟩ fun added member => ?_
    obtain ⟨item, present, rfl⟩ := List.mem_map.mp member
    exact ⟨item, present, rfl, rfl⟩
  exact stored.inFeed event ((List.mem_insertionSort _).mp member)

/-- The events of a day are the items of the day that are stored. -/
theorem Stored.eventCount {feed : List Item} {events : List CompletionEvent}
    (stored : Stored feed events) (ids : (feed.map Item.id).Nodup) (day : ℤ) :
    eventCount site events day = (feed.filter fun item =>
      item.day site = day ∧ item.id ∈ events.map CompletionEvent.eventId).length := by
  have same : ((events.filter fun event => site.calendar.dayOf event.createdAt = day).map
      CompletionEvent.eventId).Perm ((feed.filter fun item =>
        item.day site = day ∧ item.id ∈ events.map CompletionEvent.eventId).map Item.id) := by
    refine (List.perm_ext_iff_of_nodup (stored.ids.sublist (List.filter_sublist.map _))
      (ids.sublist (List.filter_sublist.map _))).mpr fun id => ?_
    simp only [List.mem_map, List.mem_filter, decide_eq_true_eq]
    constructor
    · rintro ⟨event, ⟨present, day_eq⟩, rfl⟩
      obtain ⟨item, member, id_eq, created⟩ := stored.inFeed event present
      exact ⟨item, ⟨member, by rw [Item.day, ← created]; exact day_eq, event, present, id_eq⟩,
        id_eq.symm⟩
    · rintro ⟨item, ⟨member, day_eq, event, present, same⟩, rfl⟩
      obtain ⟨other, among, id_eq, created⟩ := stored.inFeed event present
      obtain rfl : other = item := List.inj_on_of_nodup_map ids among member (id_eq.symm.trans same)
      exact ⟨event, ⟨present, by rw [created]; exact day_eq⟩, same⟩
  simpa [Forklift.eventCount] using same.length_eq

/-! ## Statements -/

/-- The tables hold no more than a feed, and nothing later than an instant. -/
structure Bounded (feed : List Item) (through : ℤ) (tables : Tables) : Prop where
  events : Stored feed tables.events
  totals : ∀ day row, tables.calls day = some row →
    row.totalCalls ≤ (itemsOn site feed day).length
  coverage : ∀ day coverage, tables.coverage day = some coverage →
    coverage.coveredThrough ≤ max (site.calendar.dayStart day) through

/-- The statement writes what the whole feed says, as of the instant. -/
def Statement.Tells (feed : List Item) (through : ℤ) : Statement → Prop
  | .upsertCallsDaily row => row.totalCalls = (itemsOn site feed row.day).length
  | .upsertDriverDaily _ => True
  | .upsertCompletionEvents events => ∀ event ∈ events, InFeed feed event
  | .recordCompletionCoverage day coverage =>
      coverage.coveredThrough = max (site.calendar.dayStart day) through

theorem Bounded.mono {feed later : List Item} {through after : ℤ} {tables : Tables}
    (bounded : Bounded site feed through tables) (grows : feed <+: later) (le : through ≤ after) :
    Bounded site later after tables where
  events := ⟨bounded.events.ids, fun event member =>
    (bounded.events.inFeed event member).mono fun _ held => grows.subset held⟩
  totals := fun day row held => (bounded.totals day row held).trans
    (grows.sublist.filter _).length_le
  coverage := fun day coverage held => (bounded.coverage day coverage held).trans
    (max_le_max le_rfl le)

variable {site}

theorem Bounded.execute {feed : List Item} {through : ℤ} {tables : Tables} {statement : Statement}
    (bounded : Bounded site feed through tables) (tells : statement.Tells site feed through) :
    Bounded site feed through (tables.execute statement) := by
  cases statement with
  | upsertCallsDaily row =>
      refine ⟨bounded.events, fun day held same => ?_, bounded.coverage⟩
      change Function.update tables.calls row.day (some row) day = some held at same
      rw [Function.update_apply] at same
      split at same
      · subst_vars
        exact Option.some.inj same ▸ tells.le
      · exact bounded.totals day held same
  | upsertDriverDaily rows => exact ⟨bounded.events, bounded.totals, bounded.coverage⟩
  | upsertCompletionEvents events =>
      exact ⟨bounded.events.upsertAll tells, bounded.totals, bounded.coverage⟩
  | recordCompletionCoverage day coverage =>
      refine ⟨bounded.events, bounded.totals, fun other held same => ?_⟩
      change Function.update tables.coverage day (some coverage) other = some held at same
      rw [Function.update_apply] at same
      split at same
      · subst_vars
        exact Option.some.inj same ▸ tells.le
      · exact bounded.coverage other held same

theorem NoLess.refl (tables : Tables) : NoLess tables tables where
  totals := fun _ row held => ⟨row, held, le_rfl⟩
  coverage := fun _ coverage held => ⟨coverage, held, le_rfl⟩

theorem NoLess.trans {before between after : Tables} (first : NoLess before between)
    (second : NoLess between after) : NoLess before after where
  totals := by
    intro day row held
    obtain ⟨row', held', le⟩ := first.totals day row held
    obtain ⟨row'', held'', le'⟩ := second.totals day row' held'
    exact ⟨row'', held'', le.trans le'⟩
  coverage := by
    intro day coverage held
    obtain ⟨coverage', held', le⟩ := first.coverage day coverage held
    obtain ⟨coverage'', held'', le'⟩ := second.coverage day coverage' held'
    exact ⟨coverage'', held'', le.trans le'⟩

/-- A statement that tells the whole feed lowers nothing that was bounded by it. -/
theorem Bounded.noLess {feed : List Item} {through : ℤ} {tables : Tables} {statement : Statement}
    (bounded : Bounded site feed through tables) (tells : statement.Tells site feed through) :
    NoLess tables (tables.execute statement) := by
  cases statement with
  | upsertCallsDaily row =>
      refine ⟨fun day held same => ?_, (NoLess.refl tables).coverage⟩
      by_cases this : day = row.day
      · subst this
        exact ⟨row, Function.update_self .., (bounded.totals _ held same).trans tells.ge⟩
      · exact ⟨held, (Function.update_of_ne this ..).trans same, le_rfl⟩
  | upsertDriverDaily rows => exact ⟨(NoLess.refl tables).totals, (NoLess.refl tables).coverage⟩
  | upsertCompletionEvents events =>
      exact ⟨(NoLess.refl tables).totals, (NoLess.refl tables).coverage⟩
  | recordCompletionCoverage day coverage =>
      refine ⟨(NoLess.refl tables).totals, fun other held same => ?_⟩
      by_cases this : other = day
      · subst this
        exact ⟨coverage, Function.update_self .., (bounded.coverage _ held same).trans tells.ge⟩
      · exact ⟨held, (Function.update_of_ne this ..).trans same, le_rfl⟩

/-! ## What a run writes -/

theorem executeAll_calls {row : ℤ → CallsRow} (day_eq : ∀ day, (row day).day = day)
    (days : List ℤ) (tables : Tables) :
    tables.executeAll (days.map fun day => .upsertCallsDaily (row day)) =
      { tables with calls := fun day => if day ∈ days then some (row day) else tables.calls day } := by
  induction days generalizing tables with
  | nil => simp [Tables.executeAll]
  | cons first rest ih =>
      change (tables.execute (.upsertCallsDaily (row first))).executeAll _ = _
      rw [ih]
      simp only [Tables.execute, day_eq, List.mem_cons, Tables.mk.injEq, and_true]
      funext day
      by_cases same : day = first
      · subst same
        simp
      · simp [same]

theorem executeAll_coverage {coverage : ℤ → Coverage} (days : List ℤ) (tables : Tables) :
    tables.executeAll (days.map fun day => .recordCompletionCoverage day (coverage day)) =
      { tables with
        coverage := fun day => if day ∈ days then some (coverage day) else tables.coverage day } := by
  induction days generalizing tables with
  | nil => simp [Tables.executeAll]
  | cons first rest ih =>
      change (tables.execute (.recordCompletionCoverage first (coverage first))).executeAll _ = _
      rw [ih]
      simp only [Tables.execute, List.mem_cons, Tables.mk.injEq, true_and]
      funext day
      by_cases same : day = first
      · subst same
        simp
      · simp [same]

theorem executeAll_append (tables : Tables) (first second : List Statement) :
    tables.executeAll (first ++ second) = (tables.executeAll first).executeAll second :=
  List.foldl_append

/-- A feed from an instant on has all items of a day, if none of the day is before. -/
theorem itemsOn_since {feed : List Item} {since day : ℤ}
    (whole : ∀ item ∈ feed, item.day site = day → since ≤ item.createdAt) :
    itemsOn site (feed.filter fun item => since ≤ item.createdAt) day = itemsOn site feed day := by
  rw [itemsOn, List.filter_filter]
  refine List.filter_congr fun item member => ?_
  by_cases same : item.day site = day
  · simp [same, whole item member same]
  · simp [same]

/-- An item of a later day than an instant is after it. -/
theorem since_le_of_day {since : ℤ} {item : Item}
    (later : site.calendar.dayOf since < item.day site) : since ≤ item.createdAt := by
  by_contra before
  exact absurd later (not_lt.mpr (site.calendar.dayOf_mono (not_le.mp before).le))

/-- The items of a feed from an instant on. -/
def since (feed : List Item) (first : ℤ) : List Item :=
  feed.filter fun item => first ≤ item.createdAt

theorem completionEvents_since {feed : List Item} {first : ℤ} {names : Names}
    (member : event ∈ completionEvents names (since feed first)) : InFeed feed event :=
  (completionEvents_inFeed member).mono fun _ held => (List.mem_filter.mp held).1

section Stored

variable {feed items : List Item} {events : List CompletionEvent} {names : Names}

/-- The events of a day whose items are all fetched. -/
theorem eventCount_full (stored : Stored feed events) (ids : (feed.map Item.id).Nodup)
    {first day : ℤ} (whole : ∀ item ∈ feed, item.day site = day → first ≤ item.createdAt) :
    eventCount site ((completionEvents names (since feed first)).foldl upsertEvent events) day =
      (itemsOn site feed day).length := by
  have fetched : ∀ event ∈ completionEvents names (since feed first), InFeed feed event :=
    fun _ => completionEvents_since
  have later := stored.upsertAll fetched
  rw [later.eventCount site ids, itemsOn]
  congr 1
  refine List.filter_congr fun item member => ?_
  simp only [decide_eq_decide, and_iff_left_iff_imp]
  intro day_eq
  refine mem_upsertAll_ids.mpr (.inr (completionEvents_ids.mpr (List.mem_map_of_mem ?_)))
  exact List.mem_filter.mpr ⟨member, decide_eq_true (whole item member day_eq)⟩

/-- The events of a day of which nothing is fetched that is not stored. -/
theorem eventCount_same (stored : Stored feed events) (ids : (feed.map Item.id).Nodup)
    {first day : ℤ} (known : ∀ item ∈ since feed first, item.day site = day →
      item.id ∈ events.map CompletionEvent.eventId) :
    eventCount site ((completionEvents names (since feed first)).foldl upsertEvent events) day =
      eventCount site events day := by
  have fetched : ∀ event ∈ completionEvents names (since feed first), InFeed feed event :=
    fun _ => completionEvents_since
  have later := stored.upsertAll fetched
  rw [later.eventCount site ids, stored.eventCount site ids]
  congr 1
  refine List.filter_congr fun item member => ?_
  simp only [decide_eq_decide, and_congr_right_iff]
  intro day_eq
  rw [mem_upsertAll_ids, completionEvents_ids]
  constructor
  · rintro (held | fetched)
    · exact held
    · obtain ⟨other, among, same⟩ := List.mem_map.mp fetched
      obtain rfl : other = item :=
        List.inj_on_of_nodup_map ids (List.mem_filter.mp among).1 member same
      exact known other among day_eq
  · exact .inl

end Stored

/-! ## Snapshots -/

section Snapshot

variable {feed : List Item} {day through : ℤ} {names : Names} {tables : Tables}

theorem whole_day (item : Item) (same : item.day site = day) :
    site.calendar.dayStart day ≤ item.createdAt :=
  same ▸ site.calendar.dayStart_dayOf_le item.createdAt

theorem snapshotToday_tells : ∀ statement ∈ snapshotToday site day through names
    (since feed (site.calendar.dayStart day)), statement.Tells site feed through := by
  intro statement member
  simp only [snapshotToday, List.mem_cons, List.not_mem_nil, or_false] at member
  rcases member with rfl | rfl | rfl | rfl
  · exact congrArg List.length (itemsOn_since fun item _ => whole_day item)
  · trivial
  · exact fun event => completionEvents_since
  · rfl

theorem snapshotToday_consistent (ids : (feed.map Item.id).Nodup)
    (stored : Stored feed tables.events) (consistent : Consistent site tables)
    (whole : ∀ item ∈ since feed (site.calendar.dayStart day), item.day site ≠ day →
      (tables.coverage (item.day site)).isSome →
        item.id ∈ tables.events.map CompletionEvent.eventId) :
    Consistent site (tables.executeAll (snapshotToday site day through names
      (since feed (site.calendar.dayStart day)))) := by
  intro other covered
  change (Function.update tables.coverage day _ other).isSome at covered
  change ∃ row, Function.update tables.calls day _ other = some row ∧ row.totalCalls =
    eventCount site ((completionEvents names _).foldl upsertEvent tables.events) other
  by_cases this : other = day
  · subst this
    refine ⟨_, Function.update_self .., ?_⟩
    rw [eventCount_full stored ids fun item _ => whole_day item]
    exact congrArg List.length (itemsOn_since fun item _ => whole_day item)
  · rw [Function.update_of_ne this] at covered ⊢
    rw [eventCount_same stored ids fun item member same => whole item member (same ▸ this)
      (same ▸ covered)]
    exact consistent other covered

end Snapshot

/-! ## Backfills -/

section Backfill

variable {feed : List Item} {first through : ℤ} {names : Names} {tables : Tables}

theorem coverageStartDay_ge {items : List Item} {start : ℤ} (began : 0 ≤ through)
    (after : ∀ item ∈ items, first ≤ item.createdAt)
    (found : coverageStartDay site first through items = some start) :
    site.calendar.dayOf first ≤ start := by
  unfold coverageStartDay at found
  split at found
  · obtain rfl := Option.some.inj found
    split <;> omega
  · split at found
    · rename_i earliest least
      obtain rfl := Option.some.inj found
      obtain ⟨item, member, rfl⟩ := List.mem_map.mp (List.min?_mem least)
      exact site.calendar.dayOf_mono (after item member)
    · split at found
      · obtain rfl := Option.some.inj found
        subst_vars
        exact site.calendar.dayOf_mono began
      · cases found

theorem mem_coverageDays {items : List Item} {day : ℤ} (began : 0 ≤ through)
    (after : ∀ item ∈ items, first ≤ item.createdAt)
    (member : day ∈ coverageDays site first through items) :
    site.calendar.dayOf first ≤ day ∧ day ≤ site.calendar.dayOf through := by
  unfold coverageDays at member
  split at member
  · cases member
  · rename_i start found
    have bound := coverageStartDay_ge began after found
    obtain ⟨offset, range, rfl⟩ := List.mem_map.mp member
    have range := List.mem_range.mp range
    omega

theorem mem_daysOf {items : List Item} {day : ℤ} :
    day ∈ daysOf site items ↔ ∃ item ∈ items, item.day site = day := by
  rw [daysOf, List.mem_insertionSort, List.mem_eraseDups, List.mem_map]

/-- A backfill has all items of the days from its first on. -/
theorem whole_from {day : ℤ}
    (whole : ∀ item ∈ feed, item.day site = site.calendar.dayOf first → first ≤ item.createdAt)
    (after : site.calendar.dayOf first ≤ day) :
    ∀ item ∈ feed, item.day site = day → first ≤ item.createdAt := by
  intro item member same
  rcases after.lt_or_eq with later | here
  · exact since_le_of_day (same ▸ later)
  · exact whole item member (same.trans here.symm)

/-- The days that a backfill writes. -/
theorem dayOf_le_of_written {day : ℤ} (began : 0 ≤ through)
    (member : day ∈ daysOf site (since feed first) ++
      coverageDays site first through (since feed first)) : site.calendar.dayOf first ≤ day := by
  have after : ∀ item ∈ since feed first, first ≤ item.createdAt := fun item member =>
    of_decide_eq_true (List.mem_filter.mp member).2
  rcases List.mem_append.mp member with member | member
  · obtain ⟨item, present, rfl⟩ := mem_daysOf.mp member
    exact site.calendar.dayOf_mono (after item present)
  · exact (mem_coverageDays began after member).1

theorem backfillHistory_tells (began : 0 ≤ through)
    (whole : ∀ item ∈ feed, item.day site = site.calendar.dayOf first → first ≤ item.createdAt) :
    ∀ statement ∈ backfillHistory site first through names (since feed first),
      statement.Tells site feed through := by
  intro statement member
  simp only [backfillHistory, List.mem_append, List.mem_map, List.mem_cons, List.not_mem_nil,
    or_false, List.mem_insertionSort, List.mem_eraseDups] at member
  rcases member with (⟨day, written, rfl⟩ | rfl | rfl) | ⟨day, covered, rfl⟩
  · have after := dayOf_le_of_written began (List.mem_append.mpr written)
    exact congrArg List.length (itemsOn_since (whole_from whole after))
  · trivial
  · exact fun event => completionEvents_since
  · have after : ∀ item ∈ since feed first, first ≤ item.createdAt := fun item member =>
      of_decide_eq_true (List.mem_filter.mp member).2
    have upTo := (mem_coverageDays began after covered).2
    have start : site.calendar.dayStart day ≤ through :=
      (site.calendar.dayStart_strictMono.monotone upTo).trans
        (site.calendar.dayStart_dayOf_le through)
    exact (max_eq_right start).symm

theorem backfillHistory_executeAll : tables.executeAll
    (backfillHistory site first through names (since feed first)) =
      { calls := fun day => if day ∈ (daysOf site (since feed first) ++
          coverageDays site first through (since feed first)).eraseDups.insertionSort (· ≤ ·) then
            some (callsRow site (since feed first) day) else tables.calls day
        drivers := ((daysOf site (since feed first)).flatMap
          (driverRows site names (since feed first))).foldl (fun drivers row =>
            Function.update drivers (row.day, row.driverId) (some row)) tables.drivers
        events := (completionEvents names (since feed first)).foldl upsertEvent tables.events
        coverage := fun day => if day ∈ coverageDays site first through (since feed first) then
          some ⟨through, eventCount site (completionEvents names (since feed first)) day⟩
            else tables.coverage day } := by
  rw [backfillHistory, executeAll_append, executeAll_append, executeAll_calls fun _ => rfl,
    executeAll_coverage]
  rfl

theorem backfillHistory_consistent (began : 0 ≤ through) (ids : (feed.map Item.id).Nodup)
    {earlier : ℤ} (bounded : Bounded site feed earlier tables) (consistent : Consistent site tables)
    (whole : ∀ item ∈ feed, item.day site = site.calendar.dayOf first → first ≤ item.createdAt) :
    Consistent site (tables.executeAll
      (backfillHistory site first through names (since feed first))) := by
  rw [backfillHistory_executeAll]
  intro day covered
  simp only [List.mem_insertionSort, List.mem_eraseDups] at covered ⊢
  by_cases written : day ∈ daysOf site (since feed first) ++
      coverageDays site first through (since feed first)
  · have full := whole_from whole (dayOf_le_of_written began written)
    rw [if_pos written, eventCount_full bounded.events ids full]
    exact ⟨_, rfl, congrArg List.length (itemsOn_since full)⟩
  · have uncovered : day ∉ coverageDays site first through (since feed first) :=
      fun member => written (List.mem_append_right _ member)
    have nothing : ∀ item ∈ since feed first, item.day site ≠ day := fun item member same =>
      written (List.mem_append_left _ (mem_daysOf.mpr ⟨item, member, same⟩))
    rw [if_neg uncovered] at covered
    rw [if_neg written, eventCount_same bounded.events ids fun item member same =>
      absurd same (nothing item member)]
    exact consistent day covered

end Backfill

/-! ## Every step -/

variable {world : World} {run : ℕ}

/-- A run read the clock, and fetched a beginning of the feed. -/
def RunSound (site : Site) (world : World) : Run → Prop
  | .started _ fetchedThrough => 0 ≤ fetchedThrough
  | .fetched kind fetchedThrough held _ items => 0 ≤ fetchedThrough ∧ held ≤ world.feed.length ∧
      items = since (world.feed.take held) (kind.since site)
  | .writing _ => True

/-- What the newest run that wrote saw. -/
def World.seen (world : World) : List Item := world.feed.take world.newest.2

/-- The only run that writes tells what it saw, and leaves totals that are those of the events. -/
structure Writer (site : Site) (world : World) (run : ℕ) (statements : List Statement) : Prop where
  only : ∀ other rest, world.runs other = some (.writing rest) → other = run
  tells : ∀ statement ∈ statements, statement.Tells site world.seen world.newest.1
  consistent : Consistent site (world.tables.executeAll statements)

structure Sound (site : Site) (world : World) : Prop where
  ids : (world.feed.map Item.id).Nodup
  clock : 0 ≤ world.now
  runs : ∀ run state, world.runs run = some state → RunSound site world state
  newest : world.newest.2 ≤ world.feed.length
  bounded : Bounded site world.seen world.newest.1 world.tables
  writer : ∀ run statements, world.runs run = some (.writing statements) →
    Writer site world run statements
  quiet : (∀ run statements, world.runs run ≠ some (.writing statements)) →
    Consistent site world.tables

theorem World.runs_setRun {state : Run} {other : ℕ} {changed : Option Run} :
    (world.setRun run changed).runs other = some state ↔
      other = run ∧ changed = some state ∨ other ≠ run ∧ world.runs other = some state := by
  change Function.update world.runs run changed other = some state ↔ _
  rw [Function.update_apply]
  split <;> simp_all

section

variable (sound : Sound site world)
include sound

/-- A run that does not write, before and after, changes nothing. -/
theorem Sound.setRun {changed : Option Run}
    (idle : ∀ statements, world.runs run ≠ some (.writing statements))
    (idle' : ∀ statements, changed ≠ some (.writing statements))
    (known : ∀ state ∈ changed, RunSound site world state) :
    Sound site (world.setRun run changed) := by
  have writing {other : ℕ} {statements : List Statement} :
      (world.setRun run changed).runs other = some (.writing statements) ↔
        world.runs other = some (.writing statements) := by
    rw [World.runs_setRun]
    constructor
    · rintro (⟨-, begun⟩ | ⟨-, held⟩)
      · exact absurd begun (idle' statements)
      · exact held
    · intro held
      refine .inr ⟨?_, held⟩
      rintro rfl
      exact idle statements held
  refine ⟨sound.ids, sound.clock, ?_, sound.newest, sound.bounded, ?_, ?_⟩
  · intro other state held
    rcases World.runs_setRun.mp held with ⟨-, begun⟩ | ⟨-, held⟩
    · cases state <;> exact known _ begun
    · cases state <;> exact sound.runs other _ held
  · intro other statements held
    have before := sound.writer other statements (writing.mp held)
    exact ⟨fun another rest held => before.only another rest (writing.mp held), before.tells,
      before.consistent⟩
  · exact fun none_ => sound.quiet fun other statements held =>
      none_ other statements (writing.mpr held)

/-- The feed grows. -/
theorem Sound.complete {item : Item} (fresh : item.id ∉ world.feed.map Item.id) :
    Sound site { world with feed := world.feed ++ [item] } := by
  have seen : World.seen { world with feed := world.feed ++ [item] } = world.seen :=
    List.take_append_of_le_length sound.newest
  refine ⟨?_, sound.clock, ?_, ?_, ?_, ?_, sound.quiet⟩
  · rw [List.map_append, List.nodup_append]
    refine ⟨sound.ids, List.nodup_singleton _, ?_⟩
    rintro id member _ last rfl
    exact fresh (List.mem_singleton.mp last ▸ member)
  · intro run state held
    have before := sound.runs run state held
    cases state with
    | started kind fetchedThrough => exact before
    | fetched kind fetchedThrough held names items =>
        obtain ⟨began, short, rfl⟩ := before
        refine ⟨began, ?_, ?_⟩
        · rw [List.length_append]
          exact short.trans (Nat.le_add_right _ _)
        · rw [List.take_append_of_le_length short]
    | writing statements => trivial
  · rw [List.length_append]
    exact sound.newest.trans (Nat.le_add_right _ _)
  · rw [seen]
    exact sound.bounded
  · intro run statements held
    have before := sound.writer run statements held
    refine ⟨before.only, ?_, before.consistent⟩
    rw [seen]
    exact before.tells

/-- A run of its turn begins to write. -/
theorem Sound.transform {kind : Kind} {fetchedThrough : ℤ} {held : ℕ} {names : Names}
    {items : List Item}
    (fetched : world.runs run = some (.fetched kind fetchedThrough held names items))
    (inOrder : InOrder site world (.transform run)) :
    Sound site ({ world with history := (fetchedThrough, held) :: world.history }.setRun run
      (some (.writing (kind.statements site fetchedThrough names items)))) := by
  obtain ⟨alone, later, more, whole⟩ := inOrder _ _ _ _ _ fetched
  obtain ⟨began, short, rfl⟩ := sound.runs run _ fetched
  have grows : world.seen <+: world.feed.take held := List.take_prefix_take_left more
  have ids : ((world.feed.take held).map Item.id).Nodup :=
    sound.ids.sublist ((List.take_sublist _ _).map _)
  have bounded := sound.bounded.mono site grows later
  have consistent := sound.quiet alone
  have told : (∀ statement ∈ kind.statements site fetchedThrough names
      (since (world.feed.take held) (kind.since site)),
        statement.Tells site (world.feed.take held) fetchedThrough) ∧
      Consistent site (world.tables.executeAll (kind.statements site fetchedThrough names
        (since (world.feed.take held) (kind.since site)))) := by
    cases kind with
    | snapshotToday day =>
        exact ⟨snapshotToday_tells,
          snapshotToday_consistent ids bounded.events consistent whole⟩
    | backfillHistory first =>
        exact ⟨backfillHistory_tells began whole,
          backfillHistory_consistent began ids bounded consistent whole⟩
  refine ⟨sound.ids, sound.clock, ?_, short, bounded, ?_, ?_⟩
  · intro other state begun
    rcases World.runs_setRun.mp begun with ⟨-, same⟩ | ⟨-, before⟩
    · exact Option.some.inj same ▸ trivial
    · cases state <;> exact sound.runs other _ before
  · intro other statements begun
    rcases World.runs_setRun.mp begun with ⟨rfl, same⟩ | ⟨-, before⟩
    · obtain rfl := Run.writing.inj (Option.some.inj same)
      refine ⟨fun another rest begun => ?_, told.1, told.2⟩
      rcases World.runs_setRun.mp begun with ⟨rfl, -⟩ | ⟨-, before⟩
      · rfl
      · exact absurd before (alone another rest)
    · exact absurd before (alone other statements)
  · intro none_
    exact absurd (World.runs_setRun.mpr (.inl ⟨rfl, rfl⟩)) (none_ run _)

/-- A statement is executed, and lowers nothing. -/
theorem Sound.write {statement : Statement} {rest : List Statement}
    (writing : world.runs run = some (.writing (statement :: rest))) :
    Sound site ({ world with tables := world.tables.execute statement }.setRun run
      (some (.writing rest))) ∧ NoLess world.tables (world.tables.execute statement) := by
  have writer := sound.writer run _ writing
  have tells := writer.tells statement List.mem_cons_self
  refine ⟨⟨sound.ids, sound.clock, ?_, sound.newest, sound.bounded.execute tells, ?_, ?_⟩,
    sound.bounded.noLess tells⟩
  · intro other state begun
    rcases World.runs_setRun.mp begun with ⟨-, same⟩ | ⟨-, before⟩
    · exact Option.some.inj same ▸ trivial
    · cases state <;> exact sound.runs other _ before
  · intro other statements begun
    rcases World.runs_setRun.mp begun with ⟨rfl, same⟩ | ⟨ne, before⟩
    · obtain rfl := Run.writing.inj (Option.some.inj same)
      refine ⟨fun another rest begun => ?_, fun later member =>
        writer.tells later (List.mem_cons_of_mem _ member), writer.consistent⟩
      rcases World.runs_setRun.mp begun with ⟨rfl, -⟩ | ⟨-, before⟩
      · rfl
      · exact writer.only another rest before
    · exact absurd (writer.only other statements before) ne
  · intro none_
    exact absurd (World.runs_setRun.mpr (.inl ⟨rfl, rfl⟩)) (none_ run _)

/-- A run is done. -/
theorem Sound.finish (writing : world.runs run = some (.writing [])) :
    Sound site (world.setRun run none) := by
  have writer := sound.writer run _ writing
  refine ⟨sound.ids, sound.clock, ?_, sound.newest, sound.bounded, ?_, ?_⟩
  · intro other state begun
    rcases World.runs_setRun.mp begun with ⟨-, ⟨⟩⟩ | ⟨-, before⟩
    cases state <;> exact sound.runs other _ before
  · intro other statements begun
    rcases World.runs_setRun.mp begun with ⟨-, ⟨⟩⟩ | ⟨ne, before⟩
    exact absurd (writer.only other statements before) ne
  · exact fun _ => writer.consistent

theorem Sound.step {action : Action} {next : World} (inOrder : InOrder site world action)
    (taken : Forklift.step site world action = some next) :
    Sound site next ∧ NoLess world.tables next.tables := by
  cases action with
  | elapse duration =>
      obtain rfl := Option.some.inj taken
      refine ⟨⟨sound.ids, Int.add_nonneg sound.clock (Int.natCast_nonneg _), ?_, sound.newest,
        sound.bounded, fun run statements held => ?_, sound.quiet⟩, NoLess.refl _⟩
      · intro run state held
        cases state <;> exact sound.runs run _ held
      · have before := sound.writer run statements held
        exact ⟨before.only, before.tells, before.consistent⟩
  | complete item =>
      simp only [Forklift.step] at taken
      split at taken
      · obtain rfl := Option.some.inj taken
        exact ⟨sound.complete ‹_›, NoLess.refl _⟩
      · cases taken
  | start run kind =>
      simp only [Forklift.step] at taken
      split at taken
      · rename_i free
        obtain rfl := Option.some.inj taken
        refine ⟨sound.setRun (fun statements held => ?_) nofun ?_, NoLess.refl _⟩
        · rw [held] at free
          cases free
        · rintro _ ⟨⟩
          exact sound.clock
      · cases taken
  | fetch run names =>
      simp only [Forklift.step] at taken
      split at taken
      · rename_i kind fetchedThrough started
        obtain rfl := Option.some.inj taken
        refine ⟨sound.setRun (fun statements held => ?_) nofun ?_, NoLess.refl _⟩
        · cases started.symm.trans held
        · rintro _ ⟨⟩
          refine ⟨sound.runs run _ started, le_rfl, ?_⟩
          rw [List.take_length]
          rfl
      · cases taken
  | transform run =>
      simp only [Forklift.step] at taken
      split at taken
      swap
      · cases taken
      rename_i kind fetchedThrough held names items fetched
      split at taken
      · obtain rfl := Option.some.inj taken
        exact ⟨sound.transform fetched inOrder, NoLess.refl _⟩
      · obtain rfl := Option.some.inj taken
        refine ⟨sound.setRun (fun statements held => ?_) nofun nofun, NoLess.refl _⟩
        cases fetched.symm.trans held
  | write run =>
      simp only [Forklift.step] at taken
      split at taken
      · obtain rfl := Option.some.inj taken
        exact ⟨sound.finish ‹_›, NoLess.refl _⟩
      · obtain rfl := Option.some.inj taken
        exact sound.write ‹_›
      · cases taken
  | fail run =>
      obtain ⟨_, -, rfl⟩ := Option.map_eq_some_iff.mp taken
      exact ⟨sound.setRun inOrder nofun nofun, NoLess.refl _⟩

end

theorem Sound.initial {feed : List Item} (ids : (feed.map Item.id).Nodup) (now : ℕ) :
    Sound site (World.initial feed now) where
  ids := ids
  clock := Int.natCast_nonneg now
  runs := fun _ _ held => nomatch held
  newest := Nat.zero_le _
  bounded := ⟨⟨List.nodup_nil, List.forall_mem_nil _⟩, fun _ _ held => (nomatch held),
    fun _ _ held => (nomatch held)⟩
  writer := fun _ _ held => nomatch held
  quiet := fun _ _ covered => nomatch covered

/-- No run is in progress. -/
def World.Quiet (world : World) : Prop := ∀ run, world.runs run = none

/-- When runs write in order, totals and coverage never go back, and when none is in progress the
total of a covered day is the number of its events. -/
theorem totals_kept (site : Site) {feed : List Item} (ids : (feed.map Item.id).Nodup) (now : ℕ)
    {world later : World}
    (before : Reachable (World.initial feed now) (step site) (InOrder site) world)
    (after : Reachable world (step site) (InOrder site) later) :
    NoLess world.tables later.tables ∧ (later.Quiet → Consistent site later.tables) := by
  have sound : Sound site world := before.invariant (Sound.initial ids now)
    fun _ _ _ sound inOrder taken => (sound.step inOrder taken).1
  have kept : Sound site later ∧ NoLess world.tables later.tables := by
    induction after with
    | initial => exact ⟨sound, NoLess.refl _⟩
    | step _ inOrder taken ih =>
        obtain ⟨next, noLess⟩ := ih.1.step inOrder taken
        exact ⟨next, ih.2.trans noLess⟩
  refine ⟨kept.2, fun quiet => kept.1.quiet fun run statements held => ?_⟩
  cases (quiet run).symm.trans held

/-- Days of ten ticks. -/
private def ticks : Site where
  calendar :=
    { dayOf := fun moment => moment / 10
      dayStart := fun day => 10 * day
      dayStart_strictMono := fun _ _ less => by dsimp only; omega
      dayOf_eq_iff := fun _ _ => by omega }
  hourOf := fun moment => (moment % 10).toNat

private def call (id : String) (createdAt : ℤ) : Item :=
  ⟨id, "d1", createdAt, none, none, none, none, none⟩

private theorem call_ids : ([call "a" 11, call "b" 16].map Item.id).Nodup := by
  decide

private def nobody : Names := fun _ => none

/-- A snapshot of a day of two calls. -/
theorem totals_kept_snapshot : ∃ later : World,
    (later.tables.calls 1).map (·.totalCalls) = some 2 ∧ Consistent ticks later.tables := by
  have permitted : Permitted (step ticks) (InOrder ticks) (World.initial [call "a" 11, call "b" 16] 19)
      [.start 0 (.snapshotToday 1), .fetch 0 nobody, .transform 0, .write 0, .write 0, .write 0,
        .write 0, .write 0] := by
    refine ⟨trivial, ?_⟩
    rintro _ ⟨⟩
    refine ⟨trivial, ?_⟩
    rintro _ ⟨⟩
    refine ⟨?_, ?_⟩
    · rintro _ _ _ _ _ ⟨⟩
      refine ⟨fun other statements held => ?_, by decide, by decide, fun item _ _ covered => ?_⟩
      · rcases World.runs_setRun.mp held with ⟨-, ⟨⟩⟩ | ⟨apart, held⟩
        rcases World.runs_setRun.mp held with ⟨same, -⟩ | ⟨-, ⟨⟩⟩
        exact apart same
      · cases covered
    · exact fun _ _ => ⟨trivial, fun _ _ => ⟨trivial, fun _ _ => ⟨trivial, fun _ _ =>
        ⟨trivial, fun _ _ => ⟨trivial, fun _ _ => trivial⟩⟩⟩⟩⟩
  obtain ⟨last, ran, total, quiet⟩ : ∃ last, Transition.run (step ticks)
      (World.initial [call "a" 11, call "b" 16] 19) [.start 0 (.snapshotToday 1), .fetch 0 nobody,
        .transform 0, .write 0, .write 0, .write 0, .write 0, .write 0] = some last ∧
      (last.tables.calls 1).map (·.totalCalls) = some 2 ∧ last.Quiet := by
    refine ⟨_, rfl, rfl, fun run => ?_⟩
    by_cases here : run = 0
    · subst here
      rfl
    · simp [World.setRun, World.initial]
  exact ⟨last, total, (totals_kept ticks call_ids 19 Reachable.initial
    (Reachable.initial.run_permitted permitted ran)).2 quiet⟩

/-- A backfill from the middle of a day. -/
theorem total_lowered : ¬ ∀ (site : Site) (feed : List Item), (feed.map Item.id).Nodup →
    ∀ (now : ℕ) (world later : World),
      Reachable (World.initial feed now) (step site) (fun _ _ => True) world →
      Reachable world (step site) (fun _ _ => True) later →
        NoLess world.tables later.tables ∧ (later.Quiet → Consistent site later.tables) := by
  intro kept
  obtain ⟨world, ran, total⟩ : ∃ world, Transition.run (step ticks)
      (World.initial [call "a" 11, call "b" 16] 19) [.start 0 (.snapshotToday 1), .fetch 0 nobody,
        .transform 0, .write 0, .write 0, .write 0, .write 0, .write 0] = some world ∧
      (world.tables.calls 1).map (·.totalCalls) = some 2 :=
    ⟨_, rfl, rfl⟩
  obtain ⟨later, lowered, total'⟩ : ∃ later, Transition.run (step ticks) world
      [.start 0 (.backfillHistory 15), .fetch 0 nobody, .transform 0, .write 0] = some later ∧
      (later.tables.calls 1).map (·.totalCalls) = some 1 := by
    obtain rfl := Option.some.inj ran
    exact ⟨_, rfl, rfl⟩
  obtain ⟨row, held, two⟩ := Option.map_eq_some_iff.mp total
  obtain ⟨row', held', one⟩ := Option.map_eq_some_iff.mp total'
  have noLess := (kept ticks _ call_ids 19 world later
    (Reachable.initial.run (fun _ _ _ => trivial) ran)
    (Reachable.initial.run (fun _ _ _ => trivial) lowered)).1
  obtain ⟨row'', held'', le⟩ := noLess.totals 1 row held
  obtain rfl : row' = row'' := Option.some.inj (held'.symm.trans held'')
  omega

end PlantManager.Forklift

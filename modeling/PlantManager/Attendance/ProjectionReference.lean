import PlantManager.Attendance.ProjectionRun

/-! # The projection, instant by instant

The status of an employee at an instant depends on the rows present then and on the rows
of the plant day (`Attendance.Projection.statusAt`). The spans of the
projection say at each instant what this reference says
(`Attendance.Projection.projectRows_eq_reference`).
-/

namespace PlantManager.Attendance.Projection

open Checks Mapping Ranking Timeline

/-! ## The reference -/

/-- The rows that last over an instant. -/
def presentAt (context : ProjectContext) (rows : List SourceRow) (moment : ℤ) : List SourceRow :=
  rows.filter fun source => source.checkIn ≤ moment ∧ moment < source.effectiveEnd context.asOf

/-- The rows that last over some instant of a day. -/
def rowsOfDay (context : ProjectContext) (rows : List SourceRow) (day : ℤ) : List SourceRow :=
  rows.filter fun source => max source.checkIn (context.calendar.dayStart day) <
    min (source.effectiveEnd context.asOf) (context.calendar.dayStart (day + 1))

/-- Whether an instant is before the grace period after the first clock-in of its day has
passed, and before the first work center of the day. -/
def PendingAt (context : ProjectContext) (rows : List SourceRow) (moment : ℤ) : Prop :=
  let day := context.calendar.dayOf moment
  (∀ source ∈ rowsOfDay context rows day,
      moment < max source.checkIn (context.calendar.dayStart day) + context.grace) ∧
    ∀ source ∈ rowsOfDay context rows day, source.workCenterId ≠ none →
      moment < max source.checkIn (context.calendar.dayStart day)

instance (context : ProjectContext) (rows : List SourceRow) (moment : ℤ) :
    Decidable (PendingAt context rows moment) :=
  inferInstanceAs (Decidable ((∀ source ∈ _, _) ∧ ∀ source ∈ _, _))

/-- The status of an employee with these rows at an instant. -/
def statusAt (context : ProjectContext) (rows : List SourceRow) (moment : ℤ) : LocationStatus :=
  let present := presentAt context rows moment
  if StaleActive context present moment then .staleOpenLocation
  else if ∃ one ∈ present, ∃ other ∈ present,
      one.workCenterId ≠ none ∧ other.workCenterId ≠ none ∧ one.workCenterId ≠ other.workCenterId
    then .conflictingLocation
  else if ∀ source ∈ present, source.workCenterId = none then
    if ∀ source ∈ present, requiresWorkCenter context source = false then .exemptNoLocation
    else if PendingAt context rows moment then .pendingFirstLocation
    else .missingRequiredLocation
  else if ∀ source ∈ present, source.workCenterId.bind context.mapWorkCenter = none then
    .unmappedLocation
  else .valid

/-- The app name of the only work center, where the projection maps it. -/
def mappedWorkCenterAt (context : ProjectContext) (rows : List SourceRow) (moment : ℤ) :
    Option String :=
  if statusAt context rows moment = .valid then
    (soleWorkCenter (presentAt context rows moment)).bind context.mapWorkCenter
  else none

/-- What a label says of an employee with these rows at an instant. -/
structure SaysAt (context : ProjectContext) (rows : List SourceRow) (moment : ℤ)
    (label : Location) : Prop where
  employee : ∃ source ∈ rows, label.employeeOdooId = source.employeeId
  attendanceIds : label.attendanceIds = attendanceIdsOf (presentAt context rows moment)
  status : label.status = statusAt context rows moment
  workCenter : label.odooWorkCenterId = soleWorkCenter (presentAt context rows moment)
  app : label.status ≠ .staleOpenLocation →
    label.appWorkCenterName = mappedWorkCenterAt context rows moment

variable {context : ProjectContext} {rows : List SourceRow}

theorem mem_presentAt {moment : ℤ} {source : SourceRow} :
    source ∈ presentAt context rows moment ↔
      source ∈ rows ∧ source.checkIn ≤ moment ∧ moment < source.effectiveEnd context.asOf := by
  rw [presentAt, List.mem_filter, decide_eq_true_iff]

theorem mem_rowsOfDay {day : ℤ} {source : SourceRow} :
    source ∈ rowsOfDay context rows day ↔
      source ∈ rows ∧ max source.checkIn (context.calendar.dayStart day) <
        min (source.effectiveEnd context.asOf) (context.calendar.dayStart (day + 1)) := by
  rw [rowsOfDay, List.mem_filter, decide_eq_true_iff]

theorem mem_coveredRows {source : SourceRow} :
    source ∈ coveredRows context rows ↔
      source ∈ rows ∧ source.checkIn < source.effectiveEnd context.asOf := by
  rw [coveredRows, List.mem_filter, decide_eq_true_iff]

theorem mem_coveredRows_of_present {moment : ℤ} {source : SourceRow}
    (present : source ∈ presentAt context rows moment) : source ∈ coveredRows context rows := by
  obtain ⟨member, started, lasts⟩ := mem_presentAt.mp present
  exact mem_coveredRows.mpr ⟨member, started.trans_lt lasts⟩

/-! ## Days -/

namespace PlantCalendar

variable (calendar : PlantCalendar)

theorem dayStart_dayOf_le (moment : ℤ) : calendar.dayStart (calendar.dayOf moment) ≤ moment :=
  ((calendar.dayOf_eq_iff moment _).mp rfl).1

theorem lt_dayStart_dayOf_add_one (moment : ℤ) :
    moment < calendar.dayStart (calendar.dayOf moment + 1) :=
  ((calendar.dayOf_eq_iff moment _).mp rfl).2

theorem dayOf_mono {moment later : ℤ} (before : moment ≤ later) :
    calendar.dayOf moment ≤ calendar.dayOf later := by
  by_contra after
  have next : calendar.dayOf later + 1 ≤ calendar.dayOf moment := by omega
  have start := calendar.dayStart_strictMono.monotone next
  have ends := calendar.lt_dayStart_dayOf_add_one later
  have starts := calendar.dayStart_dayOf_le moment
  omega

end PlantCalendar

theorem mem_daysOf {moment : ℤ} {source : SourceRow}
    (present : source ∈ presentAt context rows moment) :
    context.calendar.dayOf moment ∈ daysOf context (coveredRows context rows) := by
  obtain ⟨_, started, lasts⟩ := mem_presentAt.mp present
  rw [daysOf, (sortKeys_perm _).mem_iff, List.mem_dedup, List.mem_flatMap]
  refine ⟨source, mem_coveredRows_of_present present, ?_⟩
  have first := context.calendar.dayOf_mono started
  have last : context.calendar.dayOf moment ≤
      context.calendar.dayOf (source.effectiveEnd context.asOf - 1) :=
    context.calendar.dayOf_mono (by omega)
  rw [plantDaysForInterval, List.mem_map]
  refine ⟨(context.calendar.dayOf moment - context.calendar.dayOf source.checkIn).toNat,
    List.mem_range.mpr ?_, ?_⟩
  · omega
  · omega

/-- The covered rows whose interval meets a day are the rows of the day. -/
theorem filter_coveredRows_eq_rowsOfDay (day : ℤ) :
    ((coveredRows context rows).filter fun source =>
        source.checkIn < context.calendar.dayStart (day + 1) ∧
          context.calendar.dayStart day < source.effectiveEnd context.asOf) =
      rowsOfDay context rows day := by
  have positive : context.calendar.dayStart day < context.calendar.dayStart (day + 1) :=
    context.calendar.dayStart_strictMono (by omega)
  rw [coveredRows, rowsOfDay, List.filter_filter]
  refine List.filter_congr fun source _ => ?_
  rw [← Bool.decide_and, decide_eq_decide, max_lt_iff, lt_min_iff, lt_min_iff]
  constructor
  · rintro ⟨⟨before, after⟩, lasts⟩
    exact ⟨⟨lasts, before⟩, after, positive⟩
  · rintro ⟨⟨lasts, before⟩, after, _⟩
    exact ⟨⟨before, after⟩, lasts⟩

/-- What the state of a day holds. -/
structure DescribesDay (context : ProjectContext) (rows : List SourceRow) (day : ℤ)
    (state : DayState) : Prop where
  start : state.start = context.calendar.dayStart day
  stop : state.stop = context.calendar.dayStart (day + 1)
  grace : ((rowsOfDay context rows day).map fun source =>
    max source.checkIn (context.calendar.dayStart day)).min?.map (· + context.grace) =
      some state.graceBoundary
  workCenter : (((rowsOfDay context rows day).filter fun source => source.workCenterId ≠ none).map
    fun source => max source.checkIn (context.calendar.dayStart day)).min? = state.firstWorkCenterAt

theorem describesDay_dayState {day : ℤ} {state : DayState}
    (returned : dayState context (coveredRows context rows) day = .ok state) :
    DescribesDay context rows day state := by
  rw [dayState] at returned
  simp only [filter_coveredRows_eq_rowsOfDay] at returned
  split at returned
  · cases returned
  · rename_i firstClockIn first
    obtain rfl := Except.ok.inj returned
    exact ⟨rfl, rfl, first ▸ rfl, rfl⟩

theorem lt_min?_iff {items : List ℤ} {least bound : ℤ} (found : items.min? = some least) :
    bound < least ↔ ∀ item ∈ items, bound < item := by
  obtain ⟨member, below⟩ := List.min?_eq_some_iff.mp found
  exact ⟨fun before item isItem => before.trans_le (below item isItem),
    fun all => all least member⟩

namespace DescribesDay

variable {moment : ℤ} {state : DayState}

/-- The pending rule of a state is the pending rule of the reference. -/
theorem pendingAt_iff (describes : DescribesDay context rows (context.calendar.dayOf moment) state) :
    (moment < state.graceBoundary ∧ ∀ first ∈ state.firstWorkCenterAt, moment < first) ↔
      PendingAt context rows moment := by
  obtain ⟨firstClockIn, found, boundary⟩ := Option.map_eq_some_iff.mp describes.grace
  have grace : moment < state.graceBoundary ↔
      ∀ source ∈ rowsOfDay context rows (context.calendar.dayOf moment), moment <
        max source.checkIn (context.calendar.dayStart (context.calendar.dayOf moment)) +
          context.grace := by
    rw [← boundary, ← sub_lt_iff_lt_add, lt_min?_iff found, List.forall_mem_map]
    exact forall₂_congr fun source _ => sub_lt_iff_lt_add
  have workCenter : (∀ first ∈ state.firstWorkCenterAt, moment < first) ↔
      ∀ source ∈ rowsOfDay context rows (context.calendar.dayOf moment),
        source.workCenterId ≠ none → moment <
          max source.checkIn (context.calendar.dayStart (context.calendar.dayOf moment)) := by
    rw [← describes.workCenter]
    cases least : (((rowsOfDay context rows (context.calendar.dayOf moment)).filter fun source =>
        source.workCenterId ≠ none).map fun source =>
          max source.checkIn (context.calendar.dayStart (context.calendar.dayOf moment))).min? with
    | none =>
        have nowhere := List.map_eq_nil_iff.mp (List.min?_eq_none_iff.mp least)
        refine ⟨fun _ source today located => ?_, fun _ first found => by cases found⟩
        exact absurd (List.mem_filter.mpr ⟨today, decide_eq_true located⟩)
          (nowhere ▸ List.not_mem_nil)
    | some first =>
        have only : (∀ other ∈ some first, moment < other) ↔ moment < first :=
          ⟨fun all => all first rfl, fun before other found => Option.some.inj found ▸ before⟩
        rw [only, lt_min?_iff least, List.forall_mem_map, List.forall_mem_filter]
        simp only [decide_eq_true_eq]
  rw [grace, workCenter]
  rfl

end DescribesDay

/-! ## Pieces -/

theorem mem_dayStates {states : List (ℤ × DayState)}
    (returned : dayStates context (coveredRows context rows) = .ok states) (entry : ℤ × DayState) :
    entry ∈ states ↔ entry.1 ∈ daysOf context (coveredRows context rows) ∧
      dayState context (coveredRows context rows) entry.1 = .ok entry.2 := by
  rw [mem_of_mapM_eq_ok returned]
  constructor
  · rintro ⟨day, inDays, one⟩
    obtain ⟨state, found, same⟩ := bind_eq_ok.mp one
    obtain rfl := Except.ok.inj same
    exact ⟨inDays, found⟩
  · rintro ⟨inDays, found⟩
    exact ⟨entry.1, inDays, bind_eq_ok.mpr ⟨entry.2, found, rfl⟩⟩

/-- A piece without a boundary inside, around an instant. -/
structure Around (boundaries : List ℤ) (piece : ℤ × ℤ) (moment : ℤ) : Prop where
  started : piece.1 ≤ moment
  lasts : moment < piece.2
  apart : ∀ boundary ∈ boundaries, boundary ≤ piece.1 ∨ piece.2 ≤ boundary

namespace Around

variable {limits : List ℤ} {piece : ℤ × ℤ} {moment : ℤ}

/-- A boundary is reached at the start of the piece if it is reached at the instant. -/
theorem le_iff (around : Around limits piece moment) {boundary : ℤ} (member : boundary ∈ limits) :
    boundary ≤ piece.1 ↔ boundary ≤ moment := by
  constructor
  · exact fun before => before.trans around.started
  · intro before
    rcases around.apart boundary member with reached | later
    · exact reached
    · exact absurd (around.lasts.trans_le (later.trans before)) (lt_irrefl _)

theorem lt_iff (around : Around limits piece moment) {boundary : ℤ} (member : boundary ∈ limits) :
    piece.1 < boundary ↔ moment < boundary := by
  rw [← not_le, ← not_le, around.le_iff member]

variable {states : List (ℤ × DayState)}

theorem checkIn_mem {source : SourceRow} (covered : source ∈ coveredRows context rows) :
    source.checkIn ∈ boundaries context (coveredRows context rows) states :=
  List.mem_append_left _ (List.mem_append_left _
    (List.mem_flatMap.mpr ⟨source, covered, List.mem_cons_self⟩))

theorem effectiveEnd_mem {source : SourceRow} (covered : source ∈ coveredRows context rows) :
    source.effectiveEnd context.asOf ∈ boundaries context (coveredRows context rows) states :=
  List.mem_append_left _ (List.mem_append_left _
    (List.mem_flatMap.mpr ⟨source, covered, List.mem_cons_of_mem _ List.mem_cons_self⟩))

variable {entry : ℤ × DayState}

theorem state_mem (member : entry ∈ states) :
    entry.2.start ∈ boundaries context (coveredRows context rows) states ∧
      entry.2.stop ∈ boundaries context (coveredRows context rows) states := by
  constructor <;>
    refine List.mem_append_left _ (List.mem_append_right _ (List.mem_flatMap.mpr ⟨entry, member,
      List.mem_append_right _ ?_⟩))
  · exact List.mem_cons_self
  · exact List.mem_cons_of_mem _ List.mem_cons_self

theorem graceBoundary_mem (member : entry ∈ states) {source : SourceRow}
    (covered : source ∈ coveredRows context rows) (nowhere : source.workCenterId = none)
    (after : max source.checkIn entry.2.start < entry.2.graceBoundary)
    (before : entry.2.graceBoundary < min (source.effectiveEnd context.asOf) entry.2.stop) :
    entry.2.graceBoundary ∈ boundaries context (coveredRows context rows) states := by
  refine List.mem_append_left _ (List.mem_append_right _ (List.mem_flatMap.mpr ⟨entry, member,
    List.mem_append_left _ ?_⟩))
  rw [if_pos ⟨source, covered, nowhere, after, before⟩]
  exact List.mem_singleton_self _

theorem staleBoundary_mem {source : SourceRow} (covered : source ∈ coveredRows context rows)
    (stale : SourceIsStale context) (isOpen : source.checkOut = none)
    (after : source.checkIn < staleBoundary context source)
    (before : staleBoundary context source < context.asOf) :
    staleBoundary context source ∈ boundaries context (coveredRows context rows) states := by
  refine List.mem_append_right _ ?_
  rw [if_pos stale]
  exact List.mem_map_of_mem (List.mem_filter.mpr
    ⟨covered, decide_eq_true ⟨isOpen, after, before⟩⟩)

variable (around : Around (boundaries context (coveredRows context rows) states) piece moment)

include around

/-- The rows that are active on a piece are those present at its instants. -/
theorem activeOn_eq : activeOn context (coveredRows context rows) piece =
    presentAt context rows moment := by
  rw [activeOn, coveredRows, presentAt, List.filter_filter]
  refine List.filter_congr fun source member => ?_
  rw [← Bool.decide_and, decide_eq_decide]
  constructor
  · rintro ⟨⟨before, after⟩, lasts⟩
    have covered := mem_coveredRows.mpr ⟨member, lasts⟩
    refine ⟨(around.le_iff (checkIn_mem covered)).mp ?_,
      (around.lt_iff (effectiveEnd_mem covered)).mp after⟩
    exact (around.apart _ (checkIn_mem covered)).resolve_right (not_le.mpr before)
  · rintro ⟨started, lasts⟩
    exact ⟨⟨started.trans_lt around.lasts, around.started.trans_lt lasts⟩, started.trans_lt lasts⟩

theorem staleActive_iff : StaleActive context (presentAt context rows moment) piece.1 ↔
    StaleActive context (presentAt context rows moment) moment := by
  refine and_congr_right fun stale => exists_congr fun source => and_congr_right fun present =>
    and_congr_right fun isOpen => ?_
  have covered := mem_coveredRows_of_present present
  obtain ⟨_, started, lasts⟩ := mem_presentAt.mp present
  constructor
  · exact fun reached => reached.trans around.started
  · intro reached
    rw [SourceRow.effectiveEnd, isOpen, Option.getD_none] at lasts
    by_cases after : source.checkIn < staleBoundary context source
    · exact (around.le_iff (staleBoundary_mem covered stale isOpen after
        (reached.trans_lt lasts))).mpr reached
    · exact (not_lt.mp after).trans ((around.le_iff (checkIn_mem covered)).mpr started)

variable (returned : dayStates context (coveredRows context rows) = .ok states)

include returned

omit around in
theorem exists_state {source : SourceRow} (present : source ∈ presentAt context rows moment) :
    ∃ state, (context.calendar.dayOf moment, state) ∈ states := by
  have inDays := mem_daysOf present
  obtain ⟨entry, found⟩ := exists_ok_of_mapM_eq_ok returned inDays
  obtain ⟨state, one, _⟩ := bind_eq_ok.mp found
  exact ⟨state, (mem_dayStates returned _).mpr ⟨inDays, one⟩⟩

omit around in
theorem describes (member : entry ∈ states) : DescribesDay context rows entry.1 entry.2 :=
  describesDay_dayState ((mem_dayStates returned entry).mp member).2

theorem dayOf_eq {source : SourceRow} (present : source ∈ presentAt context rows moment) :
    context.calendar.dayOf piece.1 = context.calendar.dayOf moment := by
  obtain ⟨state, member⟩ := exists_state returned present
  have describes := describes returned member
  obtain ⟨start, stop⟩ := @state_mem context rows _ _ member
  refine (context.calendar.dayOf_eq_iff piece.1 _).mpr ⟨?_, ?_⟩
  · rw [← describes.start]
    refine (around.le_iff start).mpr ?_
    exact describes.start ▸ context.calendar.dayStart_dayOf_le moment
  · rw [← describes.stop]
    refine (around.lt_iff stop).mpr ?_
    exact describes.stop ▸ context.calendar.lt_dayStart_dayOf_add_one moment

/-- Without a work center the grace period of the day ends before the piece or after it. -/
theorem lt_graceBoundary_iff {state : DayState}
    (member : (context.calendar.dayOf moment, state) ∈ states) {source : SourceRow}
    (present : source ∈ presentAt context rows moment) (nowhere : source.workCenterId = none) :
    piece.1 < state.graceBoundary ↔ moment < state.graceBoundary := by
  have describes := describes returned member
  have covered := mem_coveredRows_of_present present
  obtain ⟨start, stop⟩ := @state_mem context rows _ _ member
  obtain ⟨_, started, lasts⟩ := mem_presentAt.mp present
  constructor
  · intro before
    by_contra reached
    have reached := not_lt.mp reached
    have boundary := @graceBoundary_mem context rows _ _ member _ covered nowhere
      (max_lt_iff.mpr
        ⟨((around.le_iff (checkIn_mem covered)).mpr started).trans_lt before,
          ((around.le_iff start).mpr (describes.start ▸
            context.calendar.dayStart_dayOf_le moment)).trans_lt before⟩)
      (lt_min_iff.mpr ⟨reached.trans_lt lasts, reached.trans_lt
        (describes.stop ▸ context.calendar.lt_dayStart_dayOf_add_one moment)⟩)
    exact absurd before (not_lt.mpr ((around.le_iff boundary).mpr reached))
  · exact fun before => around.started.trans_lt before

theorem lt_firstWorkCenterAt_iff {state : DayState}
    (member : (context.calendar.dayOf moment, state) ∈ states) {first : ℤ}
    (found : first ∈ state.firstWorkCenterAt) : piece.1 < first ↔ moment < first := by
  have describes := describes returned member
  obtain ⟨start, _⟩ := @state_mem context rows _ _ member
  have least := (List.min?_eq_some_iff.mp (describes.workCenter.trans found)).1
  obtain ⟨source, located, same⟩ := List.mem_map.mp least
  obtain ⟨inRows, touches⟩ := mem_rowsOfDay.mp (List.mem_filter.mp located).1
  have covered : source ∈ coveredRows context rows := mem_coveredRows.mpr
    ⟨inRows, (max_lt_iff.mp (lt_min_iff.mp touches).1).1⟩
  refine around.lt_iff ?_
  rcases max_choice source.checkIn (context.calendar.dayStart (context.calendar.dayOf moment))
    with isCheckIn | isStart
  · exact (isCheckIn.symm.trans same) ▸ checkIn_mem covered
  · exact (isStart.symm.trans same) ▸ describes.start ▸ start

/-- The status without a work center is the one of the reference. -/
theorem noLocationStatus_eq {source : SourceRow}
    (present : source ∈ presentAt context rows moment)
    (nowhere : ∀ source ∈ presentAt context rows moment, source.workCenterId = none)
    {state : DayState} (found : states.lookup (context.calendar.dayOf piece.1) = some state) :
    noLocationStatus context (presentAt context rows moment) state piece.1 =
      if ∀ source ∈ presentAt context rows moment, requiresWorkCenter context source = false then
        .exemptNoLocation
      else if PendingAt context rows moment then .pendingFirstLocation
      else .missingRequiredLocation := by
  rw [around.dayOf_eq returned present] at found
  obtain ⟨before, after, split, _⟩ := List.lookup_eq_some_iff.mp found
  have member : (context.calendar.dayOf moment, state) ∈ states :=
    split ▸ List.mem_append_right _ List.mem_cons_self
  have describes := describes returned member
  have pending : (piece.1 < state.graceBoundary ∧
      ∀ first ∈ state.firstWorkCenterAt, piece.1 < first) ↔ PendingAt context rows moment := by
    rw [← describes.pendingAt_iff]
    exact and_congr
      (around.lt_graceBoundary_iff returned member present (nowhere source present))
      (forall₂_congr fun first isFirst => around.lt_firstWorkCenterAt_iff returned member isFirst)
  refine if_congr ?_ rfl (if_congr pending rfl rfl)
  simp only [not_exists, not_and, Bool.not_eq_true]

end Around

/-! ## Labels -/

variable {active : List SourceRow} {label : Location} {projected spans : List LocationSpan}

theorem mem_distinctWorkCenters {workCenterId : ℤ} :
    workCenterId ∈ distinctWorkCenters active ↔
      ∃ source ∈ active, source.workCenterId = some workCenterId := by
  rw [distinctWorkCenters, (sortKeys_perm _).mem_iff, List.mem_dedup, List.mem_filterMap]

theorem nodup_distinctWorkCenters (active : List SourceRow) : (distinctWorkCenters active).Nodup :=
  (sortKeys_perm _).nodup_iff.mpr (List.nodup_dedup _)

theorem conflicting_of_several (several : 1 < (distinctWorkCenters active).length) :
    ∃ one ∈ active, ∃ other ∈ active, one.workCenterId ≠ none ∧ other.workCenterId ≠ none ∧
      one.workCenterId ≠ other.workCenterId := by
  have distinct := nodup_distinctWorkCenters active
  match found : distinctWorkCenters active with
  | [] | [_] => simp [found] at several
  | first :: second :: rest =>
      obtain ⟨one, isOne, oneAt⟩ := mem_distinctWorkCenters.mp (found ▸ List.mem_cons_self)
      obtain ⟨other, isOther, otherAt⟩ := mem_distinctWorkCenters.mp
        (found ▸ List.mem_cons_of_mem _ List.mem_cons_self)
      rw [found] at distinct
      refine ⟨one, isOne, other, isOther, by simp [oneAt], by simp [otherAt], ?_⟩
      rw [oneAt, otherAt]
      intro same
      exact (List.nodup_cons.mp distinct).1 (Option.some.inj same ▸ List.mem_cons_self)

/-- With one work center every located row is there. -/
theorem not_conflicting_of_only {workCenterId : ℤ}
    (only : distinctWorkCenters active = [workCenterId]) {source : SourceRow}
    (isActive : source ∈ active) (located : source.workCenterId ≠ none) :
    source.workCenterId = some workCenterId := by
  obtain ⟨other, found⟩ := Option.ne_none_iff_exists'.mp located
  have member := mem_distinctWorkCenters.mpr ⟨source, isActive, found⟩
  rw [only] at member
  rw [found, List.mem_singleton.mp member]

theorem unlocated_of_nowhere (nowhere : distinctWorkCenters active = []) {source : SourceRow}
    (isActive : source ∈ active) : source.workCenterId = none := by
  by_contra located
  obtain ⟨other, found⟩ := Option.ne_none_iff_exists'.mp located
  have member := mem_distinctWorkCenters.mpr ⟨source, isActive, found⟩
  rw [nowhere] at member
  cases member

section Fresh

variable {moment : ℤ} (fresh : ¬StaleActive context (presentAt context rows moment) moment)

include fresh

theorem statusAt_of_several
    (several : 1 < (distinctWorkCenters (presentAt context rows moment)).length) :
    statusAt context rows moment = .conflictingLocation := by
  rw [statusAt, if_neg fresh, if_pos (conflicting_of_several several)]

theorem statusAt_of_nowhere (nowhere : distinctWorkCenters (presentAt context rows moment) = []) :
    statusAt context rows moment =
      if ∀ source ∈ presentAt context rows moment, requiresWorkCenter context source = false then
        .exemptNoLocation
      else if PendingAt context rows moment then .pendingFirstLocation
      else .missingRequiredLocation := by
  rw [statusAt, if_neg fresh, if_neg, if_pos fun source present => unlocated_of_nowhere nowhere present]
  rintro ⟨one, present, _, _, located, _⟩
  exact located (unlocated_of_nowhere nowhere present)

theorem statusAt_of_only {workCenterId : ℤ}
    (only : distinctWorkCenters (presentAt context rows moment) = [workCenterId]) :
    statusAt context rows moment =
      if context.mapWorkCenter workCenterId = none then .unmappedLocation else .valid := by
  obtain ⟨source, present, found⟩ := mem_distinctWorkCenters.mp (only ▸ List.mem_cons_self)
  rw [statusAt, if_neg fresh, if_neg, if_neg]
  · refine if_congr ⟨fun unknown => ?_, fun unknown other isPresent => ?_⟩ rfl rfl
    · simpa only [found, Option.bind_some] using unknown source present
    · by_cases located : other.workCenterId = none
      · rw [located, Option.bind_none]
      · rw [not_conflicting_of_only only isPresent located, Option.bind_some, unknown]
  · exact fun nowhere => by simp [nowhere source present] at found
  · rintro ⟨one, isOne, other, isOther, oneLocated, otherLocated, different⟩
    exact different ((not_conflicting_of_only only isOne oneLocated).trans
      (not_conflicting_of_only only isOther otherLocated).symm)

end Fresh

theorem noLocationStatus_ne_valid {left : ℤ} (state : DayState) :
    noLocationStatus context active state left ≠ .valid := by
  rw [noLocationStatus]
  split
  · nofun
  · split <;> nofun

/-- The label of a piece says what the reference says at each instant of the piece. -/
theorem saysAt_of_labels {states : List (ℤ × DayState)} {piece : ℤ × ℤ} {moment : ℤ}
    {first : SourceRow} {others : List SourceRow}
    (returned : dayStates context (coveredRows context rows) = .ok states)
    (around : Around (boundaries context (coveredRows context rows) states) piece moment)
    (active : activeOn context (coveredRows context rows) piece = first :: others)
    (labels : Labels context states projected first (first :: others) piece.1 label) :
    SaysAt context rows moment label := by
  rw [around.activeOn_eq] at active
  have present : first ∈ presentAt context rows moment := active ▸ List.mem_cons_self
  rw [← active] at labels
  have fresh (still : ¬StaleActive context (presentAt context rows moment) piece.1) :
      ¬StaleActive context (presentAt context rows moment) moment :=
    mt around.staleActive_iff.mpr still
  have status : label.status = statusAt context rows moment := by
    cases labels.classified with
    | stale stale status _ => rw [status, statusAt, if_pos (around.staleActive_iff.mp stale)]
    | conflicting still several status _ => rw [status, statusAt_of_several (fresh still) several]
    | unlocated still nowhere state found status _ =>
        rw [status, statusAt_of_nowhere (fresh still) nowhere]
        exact around.noLocationStatus_eq returned present
          (fun source isPresent => unlocated_of_nowhere nowhere isPresent) found
    | unmapped still workCenterId only unknown status _ =>
        rw [status, statusAt_of_only (fresh still) only, if_pos unknown]
    | valid still workCenterId only name known status _ =>
        rw [status, statusAt_of_only (fresh still) only, if_neg (known ▸ Option.some_ne_none name)]
  have app (notStale : label.status ≠ .staleOpenLocation) :
      label.appWorkCenterName = mappedWorkCenterAt context rows moment := by
    rw [mappedWorkCenterAt, ← status]
    cases labels.classified with
    | stale _ status _ => exact absurd status notStale
    | conflicting _ _ status app => rw [app, status, if_neg nofun]
    | unlocated _ _ state _ status app =>
        rw [app, status, if_neg (noLocationStatus_ne_valid state)]
    | unmapped _ _ _ _ status app => rw [app, status, if_neg nofun]
    | valid _ workCenterId only name known status app =>
        rw [app, status, if_pos rfl, soleWorkCenter, only]
        exact known.symm
  exact ⟨⟨first, (mem_presentAt.mp present).1, labels.employee⟩, labels.attendanceIds, status,
    labels.workCenter, app⟩

/-! ## Employees -/

theorem exists_piece_of_present {states : List (ℤ × DayState)} {moment : ℤ}
    (present : presentAt context rows moment ≠ []) :
    ∃ piece ∈ pieces (sortedBoundaries (boundaries context (coveredRows context rows) states)),
      piece.1 ≤ moment ∧ moment < piece.2 := by
  obtain ⟨source, isPresent⟩ := List.exists_mem_of_ne_nil _ present
  have covered := mem_coveredRows_of_present isPresent
  obtain ⟨_, started, lasts⟩ := mem_presentAt.mp isPresent
  exact exists_piece (pairwise_sortedBoundaries _)
    (mem_sortedBoundaries.mpr (Around.checkIn_mem covered))
    (mem_sortedBoundaries.mpr (Around.effectiveEnd_mem covered)) started lasts

theorem around_of_mem_pieces {limits : List ℤ} {piece : ℤ × ℤ}
    (member : piece ∈ pieces (sortedBoundaries limits)) {moment : ℤ} (started : piece.1 ≤ moment)
    (lasts : moment < piece.2) : Around limits piece moment :=
  ⟨started, lasts, fun boundary isBoundary =>
    (lt_and_apart_of_mem_pieces (pairwise_sortedBoundaries _) member).2.2.2 boundary
      (mem_sortedBoundaries.mpr isBoundary)⟩

/-- The spans of an employee follow each other, are merged, cover the instants at which a row
is present, and say what the reference says. -/
structure AgreesWithReference (context : ProjectContext) (rows : List SourceRow)
    (spans : List LocationSpan) : Prop where
  sequence : InSequence spans
  merged : spans.IsChain fun first second => ¬(first.stop = second.start ∧ first.label = second.label)
  covers : ∀ moment, (∃ span ∈ spans, span.Covers moment) ↔ presentAt context rows moment ≠ []
  labels : ∀ span ∈ spans, ∀ moment, span.Covers moment → SaysAt context rows moment span.label

theorem agreesWithReference_nil (uncovered : coveredRows context rows = []) :
    AgreesWithReference context rows [] where
  sequence := ⟨fun _ member => absurd member List.not_mem_nil, List.Pairwise.nil⟩
  merged := List.isChain_nil
  covers moment := by
    refine ⟨fun ⟨_, member, _⟩ => absurd member List.not_mem_nil, fun present => ?_⟩
    obtain ⟨source, isPresent⟩ := List.exists_mem_of_ne_nil _ present
    exact absurd (mem_coveredRows_of_present isPresent) (uncovered ▸ List.not_mem_nil)
  labels _ member := absurd member List.not_mem_nil

theorem inSequence_of_projected {states : List (ℤ × DayState)} {limits : List ℤ}
    (ran : Projected context (coveredRows context rows) states
      (pieces (sortedBoundaries limits)) projected) : InSequence projected :=
  ran.inSequence (fun _ member =>
    (lt_and_apart_of_mem_pieces (pairwise_sortedBoundaries _) member).1)
    (pairwise_pieces (pairwise_sortedBoundaries _))

/-- Every span of a run over the pieces says what the reference says. -/
theorem saysAt_of_projected {states : List (ℤ × DayState)}
    (described : dayStates context (coveredRows context rows) = .ok states)
    (ran : Projected context (coveredRows context rows) states
      (pieces (sortedBoundaries (boundaries context (coveredRows context rows) states))) projected)
    {moment : ℤ} (labelled : LabelledAt projected moment label) :
    SaysAt context rows moment label := by
  obtain ⟨span, member, covers, rfl⟩ := labelled
  obtain ⟨piece, inPieces, _, _, _, active, start, stop, labels⟩ := ran.exists_piece member
  exact saysAt_of_labels described
    (around_of_mem_pieces inPieces (start ▸ covers.1) (stop ▸ covers.2)) active labels

theorem covers_of_projected {states : List (ℤ × DayState)}
    (ran : Projected context (coveredRows context rows) states
      (pieces (sortedBoundaries (boundaries context (coveredRows context rows) states))) projected)
    (moment : ℤ) :
    (∃ label, LabelledAt projected moment label) ↔ presentAt context rows moment ≠ [] := by
  constructor
  · rintro ⟨label, span, member, covers, rfl⟩
    obtain ⟨piece, inPieces, _, first, others, active, start, stop, _⟩ := ran.exists_piece member
    have around := around_of_mem_pieces inPieces (start ▸ covers.1) (stop ▸ covers.2)
    rw [← around.activeOn_eq, active]
    exact List.cons_ne_nil first others
  · intro present
    obtain ⟨piece, inPieces, started, lasts⟩ := exists_piece_of_present present
    have around := around_of_mem_pieces inPieces started lasts
    obtain ⟨span, member, start, stop⟩ := ran.exists_span inPieces (around.activeOn_eq ▸ present)
    exact ⟨span.label, span, member, ⟨start ▸ started, stop ▸ lasts⟩, rfl⟩

theorem exists_labelledAt_iff {moment : ℤ} :
    (∃ label, LabelledAt spans moment label) ↔ ∃ span ∈ spans, span.Covers moment :=
  ⟨fun ⟨_, span, member, covers, _⟩ => ⟨span, member, covers⟩,
    fun ⟨span, member, covers⟩ => ⟨span.label, span, member, covers, rfl⟩⟩

theorem agreesWithReference_projectEmployee (returned : projectEmployee context rows = .ok spans) :
    AgreesWithReference context rows spans := by
  rw [projectEmployee] at returned
  by_cases uncovered : coveredRows context rows = []
  · rw [if_pos uncovered] at returned
    exact Except.ok.inj returned ▸ agreesWithReference_nil uncovered
  · rw [if_neg uncovered] at returned
    obtain ⟨states, described, returned⟩ := bind_eq_ok.mp returned
    obtain ⟨projected, folded, merged⟩ := bind_eq_ok.mp returned
    have ran := projected_of_foldlM .none folded
    have sequence := inSequence_of_projected ran
    obtain rfl := Except.ok.inj (raiseIf_bind_eq_ok.mp merged).2
    refine ⟨inSequence_mergeAdjacent sequence, isChain_mergeAdjacent projected, fun moment => ?_,
      fun span member moment covers => ?_⟩
    · rw [← covers_of_projected ran, ← exists_labelledAt_iff]
      exact exists_congr fun label => labelAt_mergeAdjacent sequence.positive
    · exact saysAt_of_projected described ran
        ((labelAt_mergeAdjacent sequence.positive).mp ⟨span, member, covers, rfl⟩)

/-! ## Rows of several employees -/

theorem sourceRow_eq {raw source : SourceRow} (returned : sourceRow raw = .ok source) :
    source = raw := by
  have same {value result : ℤ} {fieldName : String}
      (passed : positiveInt value fieldName = .ok result) : result = value :=
    (Except.ok.inj (raiseIf_bind_eq_ok.mp passed).2).symm
  have optional {value result : Option ℤ} {fieldName : String}
      (passed : optionalPositiveInt value fieldName = .ok result) : result = value := by
    cases value with
    | none => exact (Except.ok.inj passed).symm
    | some value =>
        obtain ⟨number, positive, passed⟩ := bind_eq_ok.mp passed
        exact (Except.ok.inj passed).symm.trans (congrArg some (same positive))
  obtain ⟨_, returned⟩ := raiseIf_bind_eq_ok.mp returned
  obtain ⟨attendanceId, isAttendance, returned⟩ := bind_eq_ok.mp returned
  obtain ⟨employeeId, isEmployee, returned⟩ := bind_eq_ok.mp returned
  obtain ⟨employeeName, isName, returned⟩ := bind_eq_ok.mp returned
  obtain ⟨workCenterId, isWorkCenter, returned⟩ := bind_eq_ok.mp returned
  obtain ⟨departmentId, isDepartment, returned⟩ := bind_eq_ok.mp returned
  obtain rfl := same isAttendance
  obtain rfl := same isEmployee
  obtain rfl := (Except.ok.inj (raiseIf_bind_eq_ok.mp isName).2)
  obtain rfl := optional isWorkCenter
  obtain rfl := optional isDepartment
  exact (Except.ok.inj returned).symm

theorem eq_append_of_foldlM_normalizeRow {raws before after : List SourceRow}
    (returned : raws.foldlM normalizeRow before = .ok after) : after = before ++ raws := by
  induction raws generalizing before with
  | nil => exact (Except.ok.inj returned).symm.trans (List.append_nil before).symm
  | cons raw rest ih =>
      obtain ⟨next, one, later⟩ := bind_eq_ok.mp returned
      obtain ⟨source, isSource, checked⟩ := bind_eq_ok.mp one
      obtain rfl := sourceRow_eq isSource
      obtain ⟨_, consistent⟩ := raiseIf_bind_eq_ok.mp checked
      obtain rfl := Except.ok.inj (raiseIf_bind_eq_ok.mp consistent).2
      rw [ih later, List.append_assoc, List.singleton_append]

/-- Normalizing checks the rows and sorts them. -/
theorem perm_of_normalizeRows {raws normalized : List SourceRow}
    (returned : normalizeRows raws = .ok normalized) : normalized.Perm raws := by
  obtain ⟨checked, folded, returned⟩ := bind_eq_ok.mp returned
  obtain rfl := Except.ok.inj returned
  rw [eq_append_of_foldlM_normalizeRow folded, List.nil_append]
  exact sortBy_perm _ raws

/-- The rows of one employee. -/
def rowsOf (rows : List SourceRow) (employeeId : ℤ) : List SourceRow :=
  rows.filter fun source => source.employeeId = employeeId

/-- The spans of one employee. -/
def spansOf (spans : List LocationSpan) (employeeId : ℤ) : List LocationSpan :=
  spans.filter fun span => span.label.employeeOdooId = employeeId

theorem employee_of_projectEmployee {rows : List SourceRow} {employeeId : ℤ}
    (returned : projectEmployee context (rowsOf rows employeeId) = .ok spans) {span : LocationSpan}
    (member : span ∈ spans) : span.label.employeeOdooId = employeeId := by
  have agrees := agreesWithReference_projectEmployee returned
  obtain ⟨source, isOwn, same⟩ := (agrees.labels span member span.start
    ⟨le_rfl, agrees.sequence.positive span member⟩).employee
  rw [same]
  exact of_decide_eq_true (List.mem_filter.mp isOwn).2

/-- The projection treats each employee alone. -/
theorem projectEmployee_of_projectRows (returned : projectRows context rows = .ok spans) :
    ∃ normalized : List SourceRow, normalized.Perm rows ∧ ∀ employeeId,
      projectEmployee context (rowsOf normalized employeeId) = .ok (spansOf spans employeeId) := by
  obtain ⟨_, returned⟩ := raiseIf_bind_eq_ok.mp returned
  obtain ⟨_, returned⟩ := raiseIf_bind_eq_ok.mp returned
  obtain ⟨normalized, isNormalized, returned⟩ := bind_eq_ok.mp returned
  obtain ⟨results, mapped, returned⟩ := bind_eq_ok.mp returned
  obtain rfl := Except.ok.inj returned
  refine ⟨normalized, perm_of_normalizeRows isNormalized, fun employeeId => ?_⟩
  simp only [Dictionary.getD_get_groupBy] at mapped
  have found := filter_flatten_of_mapM (fun span : LocationSpan => span.label.employeeOdooId)
    (fun key _ items one item member => employee_of_projectEmployee one member)
    ((sortKeys_perm _).nodup_iff.mpr (Dictionary.nodup_keys _)) mapped employeeId
  split at found
  · exact found
  · rename_i absent
    have own : rowsOf normalized employeeId = [] := by
      rw [rowsOf, ← Dictionary.getD_get_groupBy, Dictionary.get_eq_none_iff.mpr]
      · rfl
      · exact fun isKey => absent ((sortKeys_perm _).mem_iff.mpr isKey)
    rw [own, spansOf, found]
    rfl

/-! ## Order of the rows -/

variable {others : List SourceRow} {moment : ℤ}

theorem attendanceIdsOf_eq_of_perm {other : List SourceRow} (perm : active.Perm other) :
    attendanceIdsOf active = attendanceIdsOf other := sortKeys_eq_of_perm (perm.map _)

theorem soleWorkCenter_eq_of_perm {other : List SourceRow} (perm : active.Perm other) :
    soleWorkCenter active = soleWorkCenter other := by
  have distinct : distinctWorkCenters active = distinctWorkCenters other :=
    sortKeys_eq_of_perm (perm.filterMap _).dedup
  rw [soleWorkCenter, soleWorkCenter, distinct]

/-- The status depends on the rows present and on whether a location is pending. -/
theorem statusAt_congr
    (present : ∀ source, source ∈ presentAt context rows moment ↔
      source ∈ presentAt context others moment)
    (pending : PendingAt context rows moment ↔ PendingAt context others moment) :
    statusAt context rows moment = statusAt context others moment := by
  have stale : StaleActive context (presentAt context rows moment) moment ↔
      StaleActive context (presentAt context others moment) moment :=
    and_congr_right fun _ => exists_congr fun source => and_congr_left fun _ => present source
  simp only [statusAt, stale, pending, present]

theorem pendingAt_iff_of_perm (perm : rows.Perm others) :
    PendingAt context rows moment ↔ PendingAt context others moment := by
  have today (day : ℤ) : (rowsOfDay context rows day).Perm (rowsOfDay context others day) :=
    perm.filter _
  simp only [PendingAt, (today _).mem_iff]

/-- The order of the rows does not matter. -/
theorem SaysAt.of_perm (reading : SaysAt context rows moment label) (perm : rows.Perm others) :
    SaysAt context others moment label := by
  have present : (presentAt context rows moment).Perm (presentAt context others moment) :=
    perm.filter _
  have status := statusAt_congr (fun _ => present.mem_iff) (pendingAt_iff_of_perm perm)
  obtain ⟨source, member, employee⟩ := reading.employee
  refine ⟨⟨source, perm.mem_iff.mp member, employee⟩,
    reading.attendanceIds.trans (attendanceIdsOf_eq_of_perm present), reading.status.trans status,
    reading.workCenter.trans (soleWorkCenter_eq_of_perm present), fun notStale => ?_⟩
  rw [reading.app notStale, mappedWorkCenterAt, mappedWorkCenterAt, status,
    soleWorkCenter_eq_of_perm present]

/-- The spans of an employee say what the reference says, whatever the order of the rows. -/
theorem saysAt_of_projectRows (returned : projectRows context rows = .ok spans) {employeeId : ℤ}
    {span : LocationSpan} (member : span ∈ spansOf spans employeeId) (covers : span.Covers moment) :
    SaysAt context (rowsOf rows employeeId) moment span.label := by
  obtain ⟨normalized, perm, own⟩ := projectEmployee_of_projectRows returned
  exact ((agreesWithReference_projectEmployee (own employeeId)).labels span member moment
    covers).of_perm (perm.filter _)

theorem covers_iff_of_projectRows (returned : projectRows context rows = .ok spans)
    (employeeId moment : ℤ) :
    (∃ span ∈ spansOf spans employeeId, span.Covers moment) ↔
      ∃ source ∈ rows, source.employeeId = employeeId ∧ source.checkIn ≤ moment ∧
        moment < source.effectiveEnd context.asOf := by
  obtain ⟨normalized, perm, own⟩ := projectEmployee_of_projectRows returned
  have some : presentAt context (rowsOf normalized employeeId) moment ≠ [] ↔
      ∃ source, source ∈ presentAt context (rowsOf normalized employeeId) moment :=
    ⟨List.exists_mem_of_ne_nil _, fun ⟨_, member⟩ => List.ne_nil_of_mem member⟩
  rw [(agreesWithReference_projectEmployee (own employeeId)).covers moment, some]
  refine exists_congr fun source => ?_
  rw [mem_presentAt, rowsOf, List.mem_filter, decide_eq_true_iff, and_assoc, perm.mem_iff]

/-- The spans say at each instant what the reference says. -/
theorem projectRows_eq_reference {spans : List LocationSpan}
    (returned : projectRows context rows = .ok spans) (employeeId moment : ℤ) :
    ((∃ span ∈ spansOf spans employeeId, span.Covers moment) ↔
        ∃ source ∈ rows, source.employeeId = employeeId ∧ source.checkIn ≤ moment ∧
          moment < source.effectiveEnd context.asOf) ∧
      ((spansOf spans employeeId).filter fun span => span.Covers moment).length ≤ 1 ∧
      (∀ span ∈ spansOf spans employeeId, span.Covers moment →
        span.label.attendanceIds =
            attendanceIdsOf (presentAt context (rowsOf rows employeeId) moment) ∧
          span.label.status = statusAt context (rowsOf rows employeeId) moment) ∧
      InSequence (spansOf spans employeeId) ∧
      (spansOf spans employeeId).IsChain fun first second =>
        ¬(first.stop = second.start ∧ first.label = second.label) := by
  obtain ⟨normalized, _, own⟩ := projectEmployee_of_projectRows returned
  have agrees := agreesWithReference_projectEmployee (own employeeId)
  refine ⟨covers_iff_of_projectRows returned employeeId moment,
    agrees.sequence.length_filter_covers_le_one moment, fun span member covers => ?_,
    agrees.sequence, agrees.merged⟩
  have reading := saysAt_of_projectRows returned member covers
  exact ⟨reading.attendanceIds, reading.status⟩

/-- A calendar without a change of the clocks. -/
def uniformCalendar : PlantCalendar where
  dayOf moment := moment / 86400000000
  dayStart day := day * 86400000000
  dayStart_strictMono := fun day later before => by dsimp only; omega
  dayOf_eq_iff moment day := by omega

/-- Two days with an open row that is stale, a closed one that overlaps it from another
work center, and an employee without a location. -/
def twoEmployees : ProjectContext × List SourceRow :=
  let minute : ℤ := 60000000
  let day : ℤ := 1440 * minute
  let row (attendanceId employeeId checkIn : ℤ) (checkOut workCenterId : Option ℤ) : SourceRow :=
    { attendanceId := attendanceId
      employeeId := employeeId
      employeeName := if employeeId = 1 then "Ann" else "Bob"
      checkIn := checkIn
      checkOut := checkOut
      workCenterId := workCenterId
      workCenterName := none
      departmentId := none
      departmentName := some "Saw"
      wageType := some "hourly"
      writeDate := checkIn }
  ({ calendar := uniformCalendar
     asOf := day + 600 * minute
     verifiedThrough := day + 590 * minute
     mapWorkCenter := fun workCenterId => if workCenterId = 5 then some "Saw 1" else none
     requiresWorkCenter := fun _ => true
     expectedDepartmentId := fun _ => none
     grace := 5 * minute
     staleAfter := minute },
    [row 11 1 (1300 * minute) none (some 5), row 12 1 (day + 60 * minute) (some (day + 90 * minute))
      (some 7), row 21 2 (day + 30 * minute) (some (day + 100 * minute)) none])

theorem projectRows_eq_reference_twoEmployees :
    ∃ spans, projectRows twoEmployees.1 twoEmployees.2 = .ok spans ∧
      ∃ span ∈ spansOf spans 1, span.Covers 90000000000 ∧ span.label.attendanceIds = [11, 12] ∧
        span.label.status = .conflictingLocation := by
  have passes : (projectRows twoEmployees.1 twoEmployees.2).toBool = true := by decide +kernel
  cases returned : projectRows twoEmployees.1 twoEmployees.2 with
  | error failure => exact absurd passes (returned ▸ nofun)
  | ok spans =>
      obtain ⟨covered, _, labels, _⟩ := projectRows_eq_reference returned 1 90000000000
      obtain ⟨span, member, covers⟩ := covered.mpr (by decide +kernel)
      obtain ⟨attendanceIds, status⟩ := labels span member covers
      exact ⟨spans, rfl, span, member, covers, attendanceIds.trans (by decide +kernel),
        status.trans (by decide +kernel)⟩

end PlantManager.Attendance.Projection

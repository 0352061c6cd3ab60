import PlantManager.Staffing.HoursReport

/-! # Clocked hours are conserved

The parts of an interval add up, on each day of the plant, to the time that elapses on that day
(`Staffing.elapsedOn_splitAtMidnights`). So the report gives each active employee the
time that elapses in the report, day by day and in total
(`Staffing.clockedHours_conserved`).
-/

namespace PlantManager.Staffing

open Mapping Ranking

/-! ## The parts of an interval -/

/-- The time that an interval has in common with another. -/
def overlap (start stop first last : ℤ) : ℤ := max 0 (min stop last - max start first)

def elapsedOn (segments : List Segment) (day : ℤ) : ℤ :=
  ((segments.filter fun segment => segment.day = day).map Segment.elapsed).sum

theorem elapsedOn_pos {segments : List Segment} {segment : Segment}
    (positive : ∀ segment ∈ segments, 0 < segment.elapsed) (member : segment ∈ segments) :
    0 < elapsedOn segments segment.day := by
  have sameDay : segment ∈ segments.filter fun other => other.day = segment.day :=
    List.mem_filter.mpr ⟨member, decide_eq_true rfl⟩
  refine List.sum_pos _ ?_ (List.ne_nil_of_mem (List.mem_map_of_mem sameDay))
  intro elapsed inside
  obtain ⟨other, listed, rfl⟩ := List.mem_map.mp inside
  exact positive other (List.mem_of_mem_filter listed)

section Split

variable {zone : PlantZone} {stop cursor : Stamp} {comparable : cursor.Comparable zone stop}

theorem splitAtMidnights_positive :
    ∀ segment ∈ splitAtMidnights zone stop cursor comparable, 0 < segment.elapsed := by
  fun_induction splitAtMidnights zone stop cursor comparable with
  | case1 cursor comparable before next elapsed rest positive ih =>
      exact List.forall_mem_cons.mpr ⟨positive, ih⟩
  | case2 cursor comparable before next elapsed rest none ih => exact ih
  | case3 cursor comparable ended => exact List.forall_mem_nil _

theorem sum_splitAtMidnights :
    ((splitAtMidnights zone stop cursor comparable).map Segment.elapsed).sum =
      max 0 (stop.moment - cursor.moment) := by
  fun_induction splitAtMidnights zone stop cursor comparable with
  | case1 cursor comparable before next elapsed rest positive ih =>
      have ends : next.moment ≤ stop.moment := by
        rw [segmentEnd_moment]
        exact min_le_left _ _
      rw [List.map_cons, List.sum_cons, ih]
      dsimp only
      omega
  | case2 cursor comparable before next elapsed rest none ih =>
      exact absurd (sub_pos.mpr (lt_segmentEnd comparable before)) none
  | case3 cursor comparable ended =>
      have past := not_lt.mp (ended ∘ (Stamp.before_iff comparable).mpr)
      rw [List.map_nil, List.sum_nil, max_eq_left (sub_nonpos.mpr past)]

/-- The parts of a day add up to the time of the interval on that day. -/
theorem elapsedOn_splitAtMidnights (day : ℤ) :
    elapsedOn (splitAtMidnights zone stop cursor comparable) day =
      overlap cursor.moment stop.moment (zone.dayStart day) (zone.dayStart (day + 1)) := by
  fun_induction splitAtMidnights zone stop cursor comparable with
  | case1 cursor comparable before next elapsed rest positive ih =>
      have ends : next.moment = min stop.moment (zone.dayStart (zone.dayOf cursor.moment + 1)) :=
        segmentEnd_moment cursor
      have begun := zone.toPlantCalendar.dayStart_dayOf_le cursor.moment
      unfold elapsedOn at ih ⊢
      by_cases same : zone.dayOf cursor.moment = day
      · subst same
        rw [List.filter_cons_of_pos (by simp), List.map_cons, List.sum_cons, ih]
        unfold overlap
        dsimp only
        omega
      · rw [List.filter_cons_of_neg (by simpa using same), ih]
        unfold overlap
        rcases lt_or_gt_of_ne same with early | late
        · have later := zone.dayStart_strictMono.monotone
            (by omega : zone.dayOf cursor.moment + 1 ≤ day)
          omega
        · have past := zone.dayStart_strictMono.monotone
            (by omega : day + 1 ≤ zone.dayOf cursor.moment)
          omega
  | case2 cursor comparable before next elapsed rest none ih =>
      exact absurd (sub_pos.mpr (lt_segmentEnd comparable before)) none
  | case3 cursor comparable ended =>
      have past := not_lt.mp (ended ∘ (Stamp.before_iff comparable).mpr)
      unfold overlap
      change 0 = _
      omega

end Split

/-! ## The parts of an attendance -/

section Attendance

variable (zone : PlantZone) (start stop now : ℤ)

/-- The time of an attendance in an interval; one that cannot be read has none. -/
def Attendance.elapsedIn (attendance : Attendance) (first last : ℤ) : ℤ :=
  match attendance.interval now with
  | none => 0
  | some (checkIn, checkOut, _) => overlap checkIn checkOut.moment first last

/-- The parts of an attendance in the report. -/
def Attendance.segments (attendance : Attendance) : List Segment :=
  match attendance.interval now with
  | none => []
  | some (checkIn, checkOut, _) =>
      let clippedStart := (Stamp.mk checkIn false).later zone (.midnight zone start)
      let clippedEnd := checkOut.earlier zone (.midnight zone (stop + 1))
      splitAtMidnights zone clippedEnd clippedStart
        (comparable_clipped zone checkIn start clippedEnd)

variable {zone start stop now} {attendance : Attendance}

theorem clippedStart_moment (zone : PlantZone) (checkIn start : ℤ) :
    ((Stamp.mk checkIn false).later zone (.midnight zone start)).moment =
      max checkIn (zone.dayStart start) :=
  Stamp.later_moment (Stamp.comparable_midnight zone _ _)

theorem clippedEnd_moment (zone : PlantZone) (checkOut : Stamp) (stop : ℤ) :
    (checkOut.earlier zone (.midnight zone stop)).moment =
      min checkOut.moment (zone.dayStart stop) :=
  Stamp.earlier_moment (Stamp.comparable_midnight zone _ _)

theorem Attendance.elapsedOn_segments {day : ℤ} (after : start ≤ day) (before : day ≤ stop) :
    elapsedOn (attendance.segments zone start stop now) day =
      attendance.elapsedIn now (zone.dayStart day) (zone.dayStart (day + 1)) := by
  unfold segments elapsedIn
  cases read : attendance.interval now with
  | none => rfl
  | some interval =>
      dsimp only
      rw [elapsedOn_splitAtMidnights, clippedStart_moment, clippedEnd_moment]
      have first := zone.dayStart_strictMono.monotone after
      have last := zone.dayStart_strictMono.monotone (by omega : day + 1 ≤ stop + 1)
      unfold overlap
      omega

theorem Attendance.sum_segments :
    ((attendance.segments zone start stop now).map Segment.elapsed).sum =
      attendance.elapsedIn now (zone.dayStart start) (zone.dayStart (stop + 1)) := by
  unfold segments elapsedIn
  cases read : attendance.interval now with
  | none => rfl
  | some interval =>
      rw [sum_splitAtMidnights, clippedStart_moment, clippedEnd_moment]
      rfl

theorem Attendance.segments_positive :
    ∀ segment ∈ attendance.segments zone start stop now, 0 < segment.elapsed := by
  unfold segments
  cases attendance.interval now with
  | none => exact List.forall_mem_nil _
  | some interval => exact splitAtMidnights_positive

/-- The parts are on days of the report. -/
theorem Attendance.day_mem_segments :
    ∀ segment ∈ attendance.segments zone start stop now,
      start ≤ segment.day ∧ segment.day ≤ stop := by
  intro segment member
  have some := elapsedOn_pos segments_positive member
  unfold segments at member some
  cases read : attendance.interval now with
  | none =>
      rw [read] at member
      cases member
  | some interval =>
      rw [read] at member some
      rw [elapsedOn_splitAtMidnights, clippedStart_moment, clippedEnd_moment] at some
      unfold overlap at some
      constructor
      · by_contra early
        have order := zone.dayStart_strictMono.monotone (by omega : segment.day + 1 ≤ start)
        omega
      · by_contra late
        have order := zone.dayStart_strictMono.monotone (by omega : stop + 1 ≤ segment.day)
        omega

end Attendance

/-! ## Hours of an aggregate -/

@[simp] theorem hoursOf_zero : hoursOf 0 = 0 := by
  unfold hoursOf
  simp

theorem hoursOf_add (first second : ℤ) : hoursOf (first + second) = hoursOf first + hoursOf second := by
  unfold hoursOf
  push_cast
  ring

theorem hoursOf_sum (elapsed : List ℤ) : hoursOf elapsed.sum = (elapsed.map hoursOf).sum := by
  induction elapsed with
  | nil => simp
  | cons first rest ih => rw [List.sum_cons, hoursOf_add, ih, List.map_cons, List.sum_cons]

def addHours (daily : Dictionary ℤ ℚ) (segment : Segment) : Dictionary ℤ ℚ :=
  daily.alter segment.day fun stored => stored.getD 0 + hoursOf segment.elapsed

theorem getD_foldl_addHours (segments : List Segment) (day : ℤ) :
    ((segments.foldl addHours ∅).get day).getD 0 = hoursOf (elapsedOn segments day) := by
  have summed := Dictionary.getD_foldl_alter Segment.day
    (fun segment hours => hours + hoursOf segment.elapsed) 0 segments ∅ day
  refine summed.trans ?_
  rw [Dictionary.get_empty, Option.getD_none, elapsedOn, hoursOf_sum, List.map_map, List.sum_eq_foldl,
    List.foldl_map]
  rfl

theorem mem_keys_foldl_addHours {segments : List Segment} {day : ℤ} :
    day ∈ (segments.foldl addHours ∅).keys ↔ ∃ segment ∈ segments, segment.day = day := by
  unfold addHours
  rw [Dictionary.mem_keys_foldl_alter]
  simp

theorem sum_values_foldl_addHours (segments : List Segment) (daily : Dictionary ℤ ℚ) :
    (segments.foldl addHours daily).values.sum =
      daily.values.sum + hoursOf (segments.map Segment.elapsed).sum := by
  induction segments generalizing daily with
  | nil => simp
  | cons segment rest ih =>
      rw [List.foldl_cons, ih, addHours, Dictionary.sum_values_alter, List.map_cons, List.sum_cons,
        hoursOf_add, add_assoc]

section Aggregates

variable {zone : PlantZone} {start stop now : ℤ}

theorem foldl_addSegment (label : String) (isOpen : Bool) (segments : List Segment)
    (aggregate : Aggregate) : segments.foldl (addSegment label isOpen) aggregate =
      { aggregate with
        dailyHours := segments.foldl addHours aggregate.dailyHours
        records := aggregate.records ++ segments.map fun segment =>
          ⟨segment.day, label, hoursOf segment.elapsed, isOpen⟩ } := by
  induction segments generalizing aggregate with
  | nil => simp
  | cons segment rest ih =>
      rw [List.foldl_cons, ih, addSegment, Aggregate.addDaily]
      simp [addHours]

/-- The day and the hours of a record. -/
def HoursRecord.part (record : HoursRecord) : ℤ × ℚ := (record.day, record.hours)

/-- The day and the hours of a segment. -/
def Segment.part (segment : Segment) : ℤ × ℚ := (segment.day, hoursOf segment.elapsed)

/-- What some segments make of an aggregate. -/
structure Grown (segments : List Segment) (before after : Aggregate) : Prop where
  employeeId : after.employeeId = before.employeeId
  dailyHours : after.dailyHours = segments.foldl addHours before.dailyHours
  records : after.records.map HoursRecord.part =
    before.records.map HoursRecord.part ++ segments.map Segment.part

theorem addAttendance_grown (aggregate : Aggregate) (attendance : Attendance) :
    Grown (attendance.segments zone start stop now) aggregate
      (addAttendance zone start stop now aggregate attendance) := by
  unfold addAttendance Attendance.segments
  cases attendance.interval now with
  | none => exact ⟨rfl, rfl, (List.append_nil _).symm⟩
  | some interval =>
      obtain ⟨checkIn, checkOut, isOpen⟩ := interval
      unfold addClockedInterval
      dsimp only
      split
      · rw [foldl_addSegment]
        refine ⟨rfl, rfl, ?_⟩
        rw [List.map_append, List.map_map]
        rfl
      · next ended =>
          have none : splitAtMidnights zone (checkOut.earlier zone (.midnight zone (stop + 1)))
              ((Stamp.mk checkIn false).later zone (.midnight zone start))
              (comparable_clipped zone checkIn start _) = [] := by
            rw [splitAtMidnights, dif_neg ended]
          rw [none]
          exact ⟨rfl, rfl, (List.append_nil _).symm⟩

theorem Grown.trans {first second : List Segment} {before between after : Aggregate}
    (one : Grown first before between) (two : Grown second between after) :
    Grown (first ++ second) before after where
  employeeId := two.employeeId.trans one.employeeId
  dailyHours := by rw [two.dailyHours, one.dailyHours, List.foldl_append]
  records := by rw [two.records, one.records, List.map_append, List.append_assoc]

theorem foldl_addAttendance_grown (zone : PlantZone) (start stop now : ℤ)
    (attendances : List Attendance) (aggregate : Aggregate) :
    Grown (attendances.flatMap fun attendance => attendance.segments zone start stop now) aggregate
      (attendances.foldl (addAttendance zone start stop now) aggregate) := by
  induction attendances generalizing aggregate with
  | nil => exact ⟨rfl, rfl, (List.append_nil _).symm⟩
  | cons attendance rest ih =>
      exact (addAttendance_grown aggregate attendance).trans (ih _)

/-- Each aggregate takes in the attendances of its employee. -/
theorem get_aggregateClocked (aggregates : Dictionary ℤ Aggregate) (attendances : List Attendance)
    (employeeId : ℤ) :
    (aggregateClocked zone aggregates start stop now attendances).get employeeId =
      (aggregates.get employeeId).map fun aggregate =>
        (attendances.filter fun attendance => attendance.employeeId = some employeeId).foldl
          (addAttendance zone start stop now) aggregate := by
  unfold aggregateClocked
  induction attendances generalizing aggregates with
  | nil => simp
  | cons attendance rest ih =>
      rw [List.foldl_cons, ih]
      cases owner : attendance.employeeId with
      | none => rw [List.filter_cons_of_neg (by simp [owner])]
      | some other =>
          rw [Dictionary.get_modify]
          by_cases same : employeeId = other
          · rw [if_pos same, List.filter_cons_of_pos (by simp [owner, same]), Option.map_map]
            rfl
          · rw [if_neg same, List.filter_cons_of_neg (by simpa [owner] using Ne.symm same)]

/-- An aggregate without hours. -/
structure Fresh (employeeId : ℤ) (aggregate : Aggregate) : Prop where
  employeeId : aggregate.employeeId = employeeId
  dailyHours : aggregate.dailyHours = ∅
  records : aggregate.records = []

variable {departments : ℤ → Option String}

variable {aggregates : Dictionary ℤ Aggregate}

theorem addPerson_fresh
    (fresh : ∀ employeeId aggregate, aggregates.get employeeId = some aggregate →
      Fresh employeeId aggregate) (person : RosterPerson) :
    ∀ employeeId aggregate, (addPerson departments aggregates person).get employeeId =
      some aggregate → Fresh employeeId aggregate := by
  intro employeeId aggregate found
  unfold addPerson at found
  split at found
  · exact fresh employeeId aggregate found
  · split at found
    · have member := Dictionary.mem_entries_setDefault (Dictionary.get_eq_some_iff.mp found)
      rcases member with old | new
      · exact fresh employeeId aggregate (Dictionary.get_eq_some_iff.mpr old)
      · obtain ⟨rfl, rfl⟩ := Prod.mk.inj new
        exact ⟨rfl, rfl, rfl⟩
    · exact fresh employeeId aggregate found

theorem mem_keys_addPerson {person : RosterPerson} {employeeId : ℤ} :
    employeeId ∈ (addPerson departments aggregates person).keys ↔
      employeeId ∈ aggregates.keys ∨ (person.active ∧ person.employeeId = some employeeId) := by
  unfold addPerson
  cases owner : person.employeeId with
  | none => simp
  | some other =>
      cases person.active with
      | false => simp
      | true =>
          change employeeId ∈ (aggregates.alter other _).keys ↔ _
          rw [Dictionary.mem_keys_alter]
          simp only [true_and, Option.some.injEq]
          rw [or_comm, eq_comm]

/-- The active employees have an aggregate each. -/
theorem activeAggregates_fresh (roster : List RosterPerson) (departments : ℤ → Option String) :
    ∀ employeeId aggregate, (activeAggregates roster departments).get employeeId = some aggregate →
      Fresh employeeId aggregate := by
  unfold activeAggregates
  induction roster using List.reverseRecOn with
  | nil => exact fun _ _ found => by simp at found
  | append_singleton roster person ih =>
      rw [List.foldl_append]
      exact addPerson_fresh ih person

theorem mem_keys_activeAggregates (roster : List RosterPerson) (departments : ℤ → Option String)
    (employeeId : ℤ) : employeeId ∈ (activeAggregates roster departments).keys ↔
      ∃ person ∈ roster, person.active ∧ person.employeeId = some employeeId := by
  unfold activeAggregates
  induction roster using List.reverseRecOn with
  | nil => simp
  | append_singleton roster person ih =>
      rw [List.foldl_append, List.foldl_cons, List.foldl_nil, mem_keys_addPerson, ih]
      simp only [List.mem_append, List.mem_singleton, or_and_right, exists_or, exists_eq_left]

end Aggregates

/-! ## The rows -/

/-- The hours of an attendance in an interval. -/
def Attendance.hoursIn (attendance : Attendance) (now first last : ℤ) : ℚ :=
  hoursOf (attendance.elapsedIn now first last)

/-- A row has the hours of some attendances: in total those of the report, and on each day those of
the day, as have its records. -/
structure HoursRow.Conserves (zone : PlantZone) (start stop now : ℤ) (attendances : List Attendance)
    (row : HoursRow) : Prop where
  total : row.totalHours = (attendances.map fun attendance =>
    attendance.hoursIn now (zone.dayStart start) (zone.dayStart (stop + 1))).sum
  distinct : (row.daily.map Prod.fst).Nodup
  inRange : ∀ entry ∈ row.daily, start ≤ entry.1 ∧ entry.1 ≤ stop
  daily : ∀ entry ∈ row.daily, entry.2 = (attendances.map fun attendance =>
    attendance.hoursIn now (zone.dayStart entry.1) (zone.dayStart (entry.1 + 1))).sum
  unlisted : ∀ day, start ≤ day → day ≤ stop → day ∉ row.daily.map Prod.fst →
    (attendances.map fun attendance =>
      attendance.hoursIn now (zone.dayStart day) (zone.dayStart (day + 1))).sum = 0
  records : ∀ entry ∈ row.daily,
    ((row.records.filter fun record => record.day = entry.1).map HoursRecord.hours).sum = entry.2
  listed : ∀ record ∈ row.records, record.day ∈ row.daily.map Prod.fst

section Rows

variable {zone : PlantZone} {start stop now : ℤ}

variable (attendances : List Attendance)

theorem elapsedOn_flatMap (day : ℤ) :
    elapsedOn (attendances.flatMap fun attendance => attendance.segments zone start stop now) day =
      (attendances.map fun attendance =>
        elapsedOn (attendance.segments zone start stop now) day).sum := by
  induction attendances with
  | nil => rfl
  | cons attendance rest ih =>
      unfold elapsedOn at ih ⊢
      rw [List.flatMap_cons, List.filter_append, List.map_append, List.sum_append, ih, List.map_cons,
        List.sum_cons]

theorem sum_elapsed_flatMap :
    ((attendances.flatMap fun attendance => attendance.segments zone start stop now).map
      Segment.elapsed).sum = (attendances.map fun attendance =>
        attendance.elapsedIn now (zone.dayStart start) (zone.dayStart (stop + 1))).sum := by
  induction attendances with
  | nil => rfl
  | cons attendance rest ih =>
      rw [List.flatMap_cons, List.map_append, List.sum_append, ih, attendance.sum_segments,
        List.map_cons, List.sum_cons]

theorem hours_of_day {attendances : List Attendance} {day : ℤ} (after : start ≤ day)
    (before : day ≤ stop) : hoursOf (elapsedOn (attendances.flatMap fun attendance =>
      attendance.segments zone start stop now) day) = (attendances.map fun attendance =>
        attendance.hoursIn now (zone.dayStart day) (zone.dayStart (day + 1))).sum := by
  rw [elapsedOn_flatMap, hoursOf_sum, List.map_map]
  refine congrArg List.sum (List.map_congr_left fun attendance _ => ?_)
  rw [Function.comp_apply, attendance.elapsedOn_segments after before]
  rfl

theorem day_mem_flatMap {attendances : List Attendance} :
    ∀ segment ∈ attendances.flatMap fun attendance => attendance.segments zone start stop now,
      start ≤ segment.day ∧ segment.day ≤ stop := by
  intro segment member
  obtain ⟨attendance, -, inside⟩ := List.mem_flatMap.mp member
  exact attendance.day_mem_segments segment inside

theorem sum_records {segments : List Segment} {records : List HoursRecord}
    (parts : records.map HoursRecord.part = segments.map Segment.part) (day : ℤ) :
    ((records.filter fun record => record.day = day).map HoursRecord.hours).sum =
      hoursOf (elapsedOn segments day) := by
  have same := congrArg (fun parts : List (ℤ × ℚ) =>
    ((parts.filter fun part => part.1 = day).map Prod.snd).sum) parts
  rw [List.filter_map, List.map_map, List.filter_map, List.map_map] at same
  rw [elapsedOn, hoursOf_sum, List.map_map]
  exact same

/-- The row of a fresh aggregate that has taken in some attendances. -/
theorem hoursRow_conserves {employeeId : ℤ} {aggregate : Aggregate}
    (fresh : Fresh employeeId aggregate) (attendances : List Attendance) :
    (hoursRow .clocked (attendances.foldl (addAttendance zone start stop now) aggregate)).Conserves
      zone start stop now attendances := by
  have grown := foldl_addAttendance_grown zone start stop now attendances aggregate
  set segments := attendances.flatMap fun attendance => attendance.segments zone start stop now
    with isSegments
  set filled := attendances.foldl (addAttendance zone start stop now) aggregate
  have dailyHours : filled.dailyHours = segments.foldl addHours ∅ := by
    rw [grown.dailyHours, fresh.dailyHours]
  have records : filled.records.map HoursRecord.part = segments.map Segment.part := by
    rw [grown.records, fresh.records, List.map_nil, List.nil_append]
  have perm : (sortBy Prod.fst filled.dailyHours.entries).Perm filled.dailyHours.entries :=
    sortBy_perm Prod.fst _
  have inRange : ∀ day ∈ filled.dailyHours.keys, start ≤ day ∧ day ≤ stop := by
    intro day member
    rw [dailyHours, mem_keys_foldl_addHours] at member
    obtain ⟨segment, inside, rfl⟩ := member
    exact day_mem_flatMap segment inside
  have hours : ∀ entry ∈ filled.dailyHours.entries,
      entry.2 = hoursOf (elapsedOn segments entry.1) := by
    intro entry member
    rw [← getD_foldl_addHours, ← dailyHours, Dictionary.get_eq_some_iff.mpr member, Option.getD_some]
  have listed : ∀ day, day ∈ (sortBy Prod.fst filled.dailyHours.entries).map Prod.fst ↔
      day ∈ filled.dailyHours.keys := fun day => (perm.map Prod.fst).mem_iff
  refine ⟨?_, ?_, ?_, ?_, ?_, ?_, ?_⟩
  · have total : filled.dailyHours.values.sum = hoursOf (segments.map Segment.elapsed).sum := by
      rw [dailyHours, sum_values_foldl_addHours]
      exact zero_add _
    refine ((perm.map Prod.snd).sum_eq.trans total).trans ?_
    rw [isSegments, sum_elapsed_flatMap, hoursOf_sum, List.map_map]
    rfl
  · exact (perm.map Prod.fst).nodup_iff.mpr filled.dailyHours.distinct
  · intro entry member
    exact inRange entry.1 (List.mem_map_of_mem (perm.mem_iff.mp member))
  · intro entry member
    have inside := perm.mem_iff.mp member
    obtain ⟨after, before⟩ := inRange entry.1 (List.mem_map_of_mem inside)
    rw [hours entry inside, isSegments, hours_of_day after before]
  · intro day after before absent
    have none : filled.dailyHours.get day = none :=
      Dictionary.get_eq_none_iff.mpr (absent ∘ (listed day).mpr)
    rw [← hours_of_day after before, ← isSegments, ← getD_foldl_addHours, ← dailyHours, none]
    rfl
  · intro entry member
    have sameRecords := sortBy_perm HoursRecord.day filled.records
    rw [hours entry (perm.mem_iff.mp member), ← sum_records records entry.1]
    exact ((sameRecords.filter _).map _).sum_eq
  · intro record member
    have inside : record ∈ filled.records := (sortBy_perm HoursRecord.day _).mem_iff.mp member
    have part : record.part ∈ segments.map Segment.part :=
      records ▸ List.mem_map_of_mem inside
    obtain ⟨segment, held, same⟩ := List.mem_map.mp part
    refine (listed record.day).mpr ?_
    rw [dailyHours, mem_keys_foldl_addHours]
    exact ⟨segment, held, congrArg Prod.fst same⟩

/-- An aggregate of the report is a fresh one of its employee with the attendances. -/
theorem mem_aggregateClocked {roster : List RosterPerson} {departments : ℤ → Option String}
    {attendances : List Attendance} {employeeId : ℤ} {filled : Aggregate} :
    (aggregateClocked zone (activeAggregates roster departments) start stop now attendances).get
        employeeId = some filled ↔
      ∃ aggregate, (activeAggregates roster departments).get employeeId = some aggregate ∧
        (attendances.filter fun attendance => attendance.employeeId = some employeeId).foldl
          (addAttendance zone start stop now) aggregate = filled := by
  rw [get_aggregateClocked, Option.map_eq_some_iff]

theorem employeeId_foldl_addAttendance (aggregate : Aggregate) :
    (attendances.foldl (addAttendance zone start stop now) aggregate).employeeId =
      aggregate.employeeId :=
  (foldl_addAttendance_grown zone start stop now attendances aggregate).employeeId

end Rows

/-- In clocked mode the report has a row for each active employee, less those that are not asked
for, and the row has the time of the employee's attendances in the report. -/
theorem clockedHours_conserved (casefold : String → String) (zone : PlantZone)
    (roster : List RosterPerson) (start stop now : ℤ) (ordered : start ≤ stop)
    (attendances : List Attendance) (workEntries : List WorkEntry)
    (departments : ℤ → Option String) (wanted : HoursQuery)
    (known : wanted.attention ∈ ["all", "approaching_40", "over_40", "attention"]) :
    ∃ report, buildHoursReport casefold zone .clocked roster start stop now attendances workEntries
        departments wanted = .ok report ∧
      ∃ rows : List HoursRow, report.rows.Perm (rows.filter (wanted.Selects casefold)) ∧
        (rows.map HoursRow.employeeId).Nodup ∧
        (∀ employeeId, employeeId ∈ rows.map HoursRow.employeeId ↔
          ∃ person ∈ roster, person.active ∧ person.employeeId = some employeeId) ∧
        ∀ row ∈ rows, row.Conserves zone start stop now
          (attendances.filter fun attendance => attendance.employeeId = some row.employeeId) := by
  refine ⟨_, by rw [buildHoursReport, if_neg (not_not.mpr known), if_neg ordered.not_gt], ?_⟩
  set filled := aggregateClocked zone (activeAggregates roster departments) start stop now attendances
    with isFilled
  have fresh := activeAggregates_fresh roster departments
  have owned : ∀ entry ∈ filled.entries, entry.2.employeeId = entry.1 := by
    intro entry member
    obtain ⟨aggregate, found, same⟩ := mem_aggregateClocked.mp (Dictionary.get_eq_some_iff.mpr member)
    rw [← same, employeeId_foldl_addAttendance]
    exact (fresh entry.1 aggregate found).employeeId
  have employeeIds : (filled.values.map (hoursRow .clocked)).map HoursRow.employeeId =
      filled.keys := by
    rw [Dictionary.values, Dictionary.keys, List.map_map, List.map_map]
    exact List.map_congr_left owned
  refine ⟨filled.values.map (hoursRow .clocked), sortBy_perm _ _, ?_, ?_, ?_⟩
  · rw [employeeIds]
    exact filled.nodup_keys
  · intro employeeId
    rw [employeeIds, ← mem_keys_activeAggregates roster departments employeeId,
      Dictionary.mem_keys_iff, Dictionary.mem_keys_iff]
    simp only [isFilled, get_aggregateClocked, Option.map_eq_some_iff]
    constructor
    · rintro ⟨-, aggregate, found, -⟩
      exact ⟨aggregate, found⟩
    · rintro ⟨aggregate, found⟩
      exact ⟨_, aggregate, found, rfl⟩
  · intro row member
    obtain ⟨aggregate, listed, rfl⟩ := List.mem_map.mp member
    obtain ⟨entry, inside, rfl⟩ := List.mem_map.mp listed
    obtain ⟨aggregate, found, same⟩ := mem_aggregateClocked.mp (Dictionary.get_eq_some_iff.mpr inside)
    have owner : (hoursRow .clocked entry.2).employeeId = entry.1 := owned entry inside
    rw [owner, ← same]
    exact hoursRow_conserves (fresh entry.1 aggregate found) _

/-- A zone whose clocks are behind those of Greenwich, the year round. -/
def PlantZone.west (behind : ℤ) : PlantZone where
  dayOf := fun moment => (moment - behind) / (24 * 3600 * microseconds)
  dayStart := fun day => day * (24 * 3600 * microseconds) + behind
  dayStart_strictMono := fun first second before =>
    Int.add_lt_add_right (Int.mul_lt_mul_of_pos_right before (by decide)) behind
  dayOf_eq_iff := fun moment day => by
    rw [Int.ediv_eq_iff_of_pos (by decide), add_mul, one_mul]
    omega
  timeOf := fun moment => (moment - behind) % (24 * 3600 * microseconds)
  timeOf_nonneg := fun moment => Int.emod_nonneg _ (by decide)
  timeOf_eq_zero_iff := fun moment => by
    have whole := Int.mul_ediv_add_emod (moment - behind) (24 * 3600 * microseconds)
    rw [mul_comm] at whole
    omega

private def hourAt (hour : ℤ) : ℤ := hour * 3600 * microseconds

/-- One employee over a midnight, and still there on the second day. -/
private def nights : List Attendance :=
  [⟨some 7, some (hourAt 28), .given (hourAt 36), false⟩, ⟨some 7, some (hourAt 50), .missing, false⟩]

theorem clockedHours_conserved_nights :
    ∃ report, buildHoursReport id (PlantZone.west (hourAt 6)) .clocked [⟨"Ana", some 7, true⟩] 0 1
        (hourAt 53) nights [] (fun _ => none) ⟨"", "", "all"⟩ = .ok report ∧
      ∃ rows : List HoursRow, report.rows.Perm (rows.filter ((HoursQuery.mk "" "" "all").Selects id)) ∧
        (rows.map HoursRow.employeeId).Nodup ∧
        (∀ employeeId, employeeId ∈ rows.map HoursRow.employeeId ↔
          ∃ person ∈ [(⟨"Ana", some 7, true⟩ : RosterPerson)], person.active ∧
            person.employeeId = some employeeId) ∧
        ∀ row ∈ rows, row.Conserves (PlantZone.west (hourAt 6)) 0 1 (hourAt 53)
          (nights.filter fun attendance => attendance.employeeId = some row.employeeId) :=
  clockedHours_conserved id (PlantZone.west (hourAt 6)) [⟨"Ana", some 7, true⟩] 0 1 (hourAt 53)
    (by decide) nights [] (fun _ => none) ⟨"", "", "all"⟩ (by decide)

end PlantManager.Staffing

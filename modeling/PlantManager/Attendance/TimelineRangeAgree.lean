import PlantManager.Attendance.ProjectionCarry
import PlantManager.Attendance.TimelineRange

/-! # Two ranges over the same mirror

The spans of two ranges say the same of each instant in both, except for the app work center
of a stale instant when a row that only one of the ranges has read ended while the rows present
were already stale (`Attendance.Projection.timelineForRange_agree`).
-/

namespace PlantManager.Attendance.Projection

open Checks Mapping Ranking Timeline

variable {site : Site} {mirror : List MirrorRow} {asOf verifiedThrough start stop moment : ℤ}

/-! ## The rows of a range -/

/-- The rows that were not deleted and last for some time, with the profiles of their employees. -/
def liveRows (site : Site) (mirror : List MirrorRow) : List SourceRow :=
  (((mirror.filter fun row => row.deletedAt = none).map MirrorRow.source).filter fun source =>
    ∀ checkOut ∈ source.checkOut, source.checkIn < checkOut).map (withEmployeeProfile site)

/-- From when on a range reads rows. -/
def contextStart (site : Site) (start : ℤ) : ℤ := site.calendar.dayStart (site.calendar.dayOf start)

/-- The rows that a range projects. -/
def rangeRows (site : Site) (mirror : List MirrorRow) (start stop : ℤ) : List SourceRow :=
  (rowsOverlapping mirror (contextStart site start) stop).map (withEmployeeProfile site)

theorem contextStart_le (site : Site) (start : ℤ) : contextStart site start ≤ start :=
  site.calendar.dayStart_dayOf_le start

variable {source : SourceRow} {employeeId : ℤ} {rows : List SourceRow} {completed : Option ℤ}
  {spans : List LocationSpan}

theorem mem_rangeRows : source ∈ rangeRows site mirror start stop ↔
    source ∈ liveRows site mirror ∧ source.checkIn < stop ∧
      ∀ checkOut ∈ source.checkOut, contextStart site start < checkOut := by
  rw [rangeRows, liveRows, List.mem_map, List.mem_map]
  constructor
  · rintro ⟨raw, member, rfl⟩
    rw [rowsOverlapping, mem_sortBy, List.mem_filter, decide_eq_true_iff] at member
    obtain ⟨live, positive, started, lasts⟩ := member
    exact ⟨⟨raw, List.mem_filter.mpr ⟨live, decide_eq_true positive⟩, rfl⟩, started, lasts⟩
  · rintro ⟨⟨raw, member, rfl⟩, started, lasts⟩
    obtain ⟨live, positive⟩ := List.mem_filter.mp member
    refine ⟨raw, ?_, rfl⟩
    rw [rowsOverlapping, mem_sortBy, List.mem_filter, decide_eq_true_iff]
    exact ⟨live, of_decide_eq_true positive, started, lasts⟩

theorem mem_rowsOf :
    source ∈ rowsOf rows employeeId ↔ source ∈ rows ∧ source.employeeId = employeeId := by
  rw [rowsOf, List.mem_filter, decide_eq_true_iff]

variable (context : ProjectContext)

/-- The rows present at an instant of the range are read. -/
theorem mem_presentAt_rangeRows (started : start ≤ moment) (lasts : moment < stop) :
    source ∈ presentAt context (rowsOf (rangeRows site mirror start stop) employeeId) moment ↔
      source ∈ presentAt context (rowsOf (liveRows site mirror) employeeId) moment := by
  rw [mem_presentAt, mem_presentAt, mem_rowsOf, mem_rowsOf, mem_rangeRows]
  constructor
  · rintro ⟨⟨⟨live, _⟩, own⟩, present⟩
    exact ⟨⟨live, own⟩, present⟩
  · rintro ⟨⟨live, own⟩, checkedIn, present⟩
    refine ⟨⟨⟨live, checkedIn.trans_lt lasts, fun checkOut found => ?_⟩, own⟩, checkedIn, present⟩
    rw [SourceRow.effectiveEnd, found, Option.getD_some] at present
    exact ((contextStart_le site start).trans started).trans_lt present

/-- The rows that a range leaves out do not decide whether a location is pending. -/
theorem pendingAt_rangeRows (sameCalendar : context.calendar = site.calendar)
    (grace : 0 ≤ context.grace) (started : start ≤ moment) (lasts : moment < stop) :
    PendingAt context (rowsOf (rangeRows site mirror start stop) employeeId) moment ↔
      PendingAt context (rowsOf (liveRows site mirror) employeeId) moment := by
  have day : contextStart site start ≤
      context.calendar.dayStart (context.calendar.dayOf moment) := by
    rw [sameCalendar]
    exact site.calendar.dayStart_strictMono.monotone (site.calendar.dayOf_mono started)
  have mem {source : SourceRow} : source ∈ rowsOfDay context
        (rowsOf (rangeRows site mirror start stop) employeeId) (context.calendar.dayOf moment) ↔
      source ∈ rowsOfDay context (rowsOf (liveRows site mirror) employeeId)
        (context.calendar.dayOf moment) ∧ source.checkIn < stop := by
    rw [mem_rowsOfDay, mem_rowsOfDay, mem_rowsOf, mem_rowsOf, mem_rangeRows]
    constructor
    · rintro ⟨⟨⟨live, before, _⟩, own⟩, today⟩
      exact ⟨⟨⟨live, own⟩, today⟩, before⟩
    · rintro ⟨⟨⟨live, own⟩, today⟩, before⟩
      refine ⟨⟨⟨live, before, fun checkOut found => ?_⟩, own⟩, today⟩
      rw [SourceRow.effectiveEnd, found, Option.getD_some, max_lt_iff, lt_min_iff, lt_min_iff] at today
      exact day.trans_lt today.2.1
  have late {source : SourceRow} (after : ¬source.checkIn < stop) : moment <
      max source.checkIn (context.calendar.dayStart (context.calendar.dayOf moment)) :=
    (lasts.trans_le (not_lt.mp after)).trans_le (le_max_left _ _)
  constructor
  · rintro ⟨early, unlocated⟩
    refine ⟨fun source today => ?_, fun source today located => ?_⟩
    · by_cases before : source.checkIn < stop
      · exact early source (mem.mpr ⟨today, before⟩)
      · exact (late before).trans_le (le_add_of_nonneg_right grace)
    · by_cases before : source.checkIn < stop
      · exact unlocated source (mem.mpr ⟨today, before⟩) located
      · exact late before
  · rintro ⟨early, unlocated⟩
    exact ⟨fun source today => early source (mem.mp today).1,
      fun source today located => unlocated source (mem.mp today).1 located⟩

/-! ## Department rules -/

theorem ruleName_mem_unlocatedDepartments_iff (member : source ∈ rows)
    (nowhere : source.workCenterId = none) {departmentName : String}
    (found : source.departmentName = some departmentName) :
    ruleName departmentName ∈ unlocatedDepartments rows ↔ strip departmentName.toList ≠ [] := by
  rw [unlocatedDepartments, List.mem_filterMap]
  constructor
  · rintro ⟨other, _, named⟩ blank
    have empty : ruleName departmentName = String.ofList [] := by
      rw [ruleName, blank]
      rfl
    dsimp only at named
    split at named
    · cases named
    · rename_i notBlank
      have same := Option.some.inj named
      rw [empty, ruleName] at same
      have chars := String.ofList_injective same
      split at chars
      · exact notBlank chars
      · rename_i other
        exact other chars
  · intro notBlank
    refine ⟨source, List.mem_filter.mpr ⟨member, decide_eq_true nowhere⟩, ?_⟩
    simp only [found, Option.getD_some, if_neg notBlank]

/-- A row without a work center has the same rule in all ranges that read it. -/
theorem departmentRequirementsForRows_eq {others : List SourceRow} (member : source ∈ rows)
    (alsoMember : source ∈ others) (nowhere : source.workCenterId = none) :
    departmentRequirementsForRows site rows source.departmentName =
      departmentRequirementsForRows site others source.departmentName := by
  cases found : source.departmentName with
  | none => rfl
  | some departmentName =>
      have same : ruleName departmentName ∈ unlocatedDepartments rows ↔
          ruleName departmentName ∈ unlocatedDepartments others := by
        rw [ruleName_mem_unlocatedDepartments_iff member nowhere found,
          ruleName_mem_unlocatedDepartments_iff alsoMember nowhere found]
      simp only [departmentRequirementsForRows, same]

/-- The rules of the rows without a work center decide the status. -/
theorem statusAt_congr_rule (rule : Option String → Bool)
    (same : ∀ source ∈ presentAt context rows moment, source.workCenterId = none →
      context.requiresWorkCenter source.departmentName = rule source.departmentName) :
    statusAt context rows moment =
      statusAt { context with requiresWorkCenter := rule } rows moment := by
  refine if_congr Iff.rfl rfl (if_congr Iff.rfl rfl ?_)
  by_cases nowhere : ∀ source ∈ presentAt context rows moment, source.workCenterId = none
  · refine (if_pos nowhere).trans (Eq.trans ?_ (if_pos nowhere).symm)
    refine if_congr (forall₂_congr fun source present => ?_) rfl rfl
    rw [requiresWorkCenter, requiresWorkCenter, same source present (nowhere source present)]
  · exact (if_neg nowhere).trans (if_neg nowhere).symm

/-! ## One instant in two ranges -/

/-- An instant in two ranges. -/
structure InBoth (first second : ℤ × ℤ) (moment : ℤ) : Prop where
  firstStarted : first.1 ≤ moment
  firstLasts : moment < first.2
  secondStarted : second.1 ≤ moment
  secondLasts : moment < second.2

/-- A row that ended after one instant, not after another, when an active row was stale. -/
def EndedWhileStale (context : ProjectContext) (rows : List SourceRow) (moment after upTo : ℤ) :
    Prop :=
  ∃ ended ∈ rows, ∃ checkOut ∈ ended.checkOut, after < checkOut ∧ checkOut ≤ upTo ∧
    ∃ source ∈ presentAt context rows moment, source.checkOut = none ∧
      staleBoundary context source ≤ checkOut

section Two

variable {first second : ℤ × ℤ} (both : InBoth first second moment)

include both

theorem InBoth.symm : InBoth second first moment :=
  ⟨both.secondStarted, both.secondLasts, both.firstStarted, both.firstLasts⟩

theorem InBoth.present_iff (context : ProjectContext) (employeeId : ℤ) (source : SourceRow) :
    source ∈ presentAt context (rowsOf (rangeRows site mirror first.1 first.2) employeeId) moment ↔
      source ∈ presentAt context (rowsOf (rangeRows site mirror second.1 second.2) employeeId)
        moment := by
  rw [mem_presentAt_rangeRows context both.firstStarted both.firstLasts,
    mem_presentAt_rangeRows context both.secondStarted both.secondLasts]

theorem InBoth.statusAt_eq (asOf verifiedThrough employeeId : ℤ) :
    statusAt (rangeContext site asOf verifiedThrough (rangeRows site mirror first.1 first.2))
        (rowsOf (rangeRows site mirror first.1 first.2) employeeId) moment =
      statusAt (rangeContext site asOf verifiedThrough (rangeRows site mirror second.1 second.2))
        (rowsOf (rangeRows site mirror second.1 second.2) employeeId) moment := by
  let context := rangeContext site asOf verifiedThrough (rangeRows site mirror second.1 second.2)
  have present := @InBoth.present_iff site mirror moment first second both context employeeId
  have grace : 0 ≤ context.grace := by
    change (0 : ℤ) ≤ 300000000
    decide
  have pending : PendingAt context (rowsOf (rangeRows site mirror first.1 first.2) employeeId)
        moment ↔
      PendingAt context (rowsOf (rangeRows site mirror second.1 second.2) employeeId) moment := by
    rw [pendingAt_rangeRows context rfl grace both.firstStarted both.firstLasts,
      pendingAt_rangeRows context rfl grace both.secondStarted both.secondLasts]
  refine (statusAt_congr_rule _ (departmentRequirementsForRows site
    (rangeRows site mirror second.1 second.2)) fun source isPresent nowhere => ?_).trans
    (statusAt_congr present pending)
  exact departmentRequirementsForRows_eq (mem_rowsOf.mp (mem_presentAt.mp isPresent).1).1
    (mem_rowsOf.mp (mem_presentAt.mp ((present source).mp isPresent)).1).1 nowhere

/-- A range keeps the fresh instants before a stale one that another range sees, unless it has
read a row that ended since. -/
theorem InBoth.freshBefore (context : ProjectContext) {employeeId : ℤ}
    (stale : StaleActive context
      (presentAt context (rowsOf (rangeRows site mirror first.1 first.2) employeeId) moment) moment)
    (unbroken : ¬EndedWhileStale context (rowsOf (liveRows site mirror) employeeId) moment
      (min (contextStart site first.1) (contextStart site second.1))
      (max (contextStart site first.1) (contextStart site second.1)))
    (fresh : FreshBefore context (rowsOf (rangeRows site mirror first.1 first.2) employeeId) moment) :
    FreshBefore context (rowsOf (rangeRows site mirror second.1 second.2) employeeId) moment := by
  have present := @InBoth.present_iff site mirror moment first second both context employeeId
  obtain ⟨since, before, wasFresh, constant⟩ := fresh
  -- the last fresh instant: the next one is stale
  obtain ⟨last, ⟨after, lastBefore, isFresh⟩, greatest⟩ := Int.exists_greatest_of_bdd
    (P := fun instant => since ≤ instant ∧ instant < moment ∧ ¬StaleActive context
      (presentAt context (rowsOf (rangeRows site mirror first.1 first.2) employeeId) moment) instant)
    ⟨moment, fun instant found => found.2.1.le⟩ ⟨since, le_rfl, before, wasFresh⟩
  have nextStale : StaleActive context (presentAt context
      (rowsOf (rangeRows site mirror first.1 first.2) employeeId) moment) (last + 1) := by
    by_contra still
    by_cases isMoment : last + 1 = moment
    · exact still (isMoment ▸ stale)
    · have found := greatest (last + 1) ⟨by omega, by omega, still⟩
      omega
  obtain ⟨mirrorStale, opened, openPresent, isOpen, reached⟩ := nextStale
  have openLasts := (mem_presentAt.mp openPresent).2.2
  rw [SourceRow.effectiveEnd, isOpen, Option.getD_none] at openLasts
  have stillFresh : ¬StaleActive context (presentAt context
      (rowsOf (rangeRows site mirror second.1 second.2) employeeId) moment) last := by
    rintro ⟨_, source, isPresent, found⟩
    exact isFresh ⟨mirrorStale, source, (present source).mpr isPresent, found⟩
  refine ⟨last, lastBefore, stillFresh, fun between notBefore upTo => ?_⟩
  have unchanged := constant between (after.trans notBefore) upTo
  refine presentAt_eq_of_mem_iff fun source => ⟨fun was => ?_, fun isPresent => ?_⟩
  · obtain ⟨own, checkedIn, lasted⟩ := mem_presentAt.mp was
    by_contra gone
    have ended : source.effectiveEnd context.asOf ≤ moment := by
      by_contra lasts
      exact gone (mem_presentAt.mpr ⟨own, checkedIn.trans upTo, not_le.mp lasts⟩)
    cases closed : source.checkOut with
    | none =>
        rw [SourceRow.effectiveEnd, closed, Option.getD_none] at ended
        omega
    | some checkOut =>
        obtain ⟨isRead, isOwn⟩ := mem_rowsOf.mp own
        obtain ⟨live, _, readAfter⟩ := mem_rangeRows.mp isRead
        have secondAfter := readAfter checkOut closed
        rw [SourceRow.effectiveEnd, closed, Option.getD_some] at ended lasted
        by_cases alsoRead : contextStart site first.1 < checkOut
        · have inFirst : source ∈ rowsOf (rangeRows site mirror first.1 first.2) employeeId :=
            mem_rowsOf.mpr ⟨mem_rangeRows.mpr ⟨live, (checkedIn.trans upTo).trans_lt both.firstLasts,
              fun other found => by
                rw [closed] at found
                exact Option.some.inj found ▸ alsoRead⟩, isOwn⟩
          have wasFirst := mem_presentAt.mpr ⟨inFirst, checkedIn,
            show between < source.effectiveEnd context.asOf by
              rwa [SourceRow.effectiveEnd, closed, Option.getD_some]⟩
          exact gone ((present source).mp (unchanged ▸ wasFirst))
        · refine unbroken ⟨source, mem_rowsOf.mpr ⟨live, isOwn⟩, checkOut, closed,
            (min_le_right _ _).trans_lt secondAfter, (not_lt.mp alsoRead).trans (le_max_left _ _),
            opened, ?_, isOpen, by omega⟩
          exact (mem_presentAt_rangeRows context both.firstStarted both.firstLasts).mp openPresent
  · have wasFirst := unchanged.symm ▸ (present source).mpr isPresent
    exact mem_presentAt.mpr ⟨(mem_presentAt.mp isPresent).1, (mem_presentAt.mp wasFirst).2⟩

end Two

/-! ## The spans of a range -/

theorem timelineForRange_eq_ok
    (returned : timelineForRange site mirror asOf completed start stop = .ok spans) :
    rangeRows site mirror start stop = [] ∧ spans = [] ∨
      ∃ verifiedThrough, completed = some verifiedThrough ∧ ∃ projected,
        projectRows (rangeContext site asOf verifiedThrough (rangeRows site mirror start stop))
          (rangeRows site mirror start stop) = .ok projected ∧
        spans = mergeAdjacent (clipSpans start stop projected) := by
  obtain ⟨_, returned⟩ := raiseIf_bind_eq_ok.mp returned
  by_cases empty : rowsOverlapping mirror (contextStart site start) stop = []
  · refine Or.inl ⟨by rw [rangeRows, empty, List.map_nil], ?_⟩
    exact (Except.ok.inj ((if_pos empty).symm.trans returned)).symm
  · have returned := (if_neg empty).symm.trans returned
    refine Or.inr ?_
    cases completed with
    | none => cases returned
    | some verifiedThrough =>
        obtain ⟨projected, isProjected, merged⟩ := bind_eq_ok.mp returned
        exact ⟨verifiedThrough, rfl, projected, isProjected,
          (Except.ok.inj (raiseIf_bind_eq_ok.mp merged).2).symm⟩

theorem labelledAt_clipSpans {projected : List LocationSpan} {label : Location} :
    LabelledAt (mergeAdjacent (clipSpans start stop projected)) moment label ↔
      (start ≤ moment ∧ moment < stop) ∧
        ∃ span ∈ projected, span.Covers moment ∧ (clip start stop span).label = label := by
  have positive : ∀ span ∈ clipSpans start stop projected, span.start < span.stop := by
    intro span member
    obtain ⟨original, kept, rfl⟩ := List.mem_map.mp member
    exact of_decide_eq_true (List.mem_filter.mp kept).2
  have covers (span : LocationSpan) : (clip start stop span).Covers moment ↔
      (start ≤ moment ∧ moment < stop) ∧ span.Covers moment := by
    change max start span.start ≤ moment ∧ moment < min stop span.stop ↔ _
    rw [max_le_iff, lt_min_iff]
    exact and_and_and_comm
  rw [labelAt_mergeAdjacent positive]
  constructor
  · rintro ⟨_, member, isCovered, rfl⟩
    obtain ⟨span, kept, rfl⟩ := List.mem_map.mp member
    obtain ⟨inside, original⟩ := (covers span).mp isCovered
    exact ⟨inside, span, (List.mem_filter.mp kept).1, original, rfl⟩
  · rintro ⟨inside, span, member, isCovered, rfl⟩
    have both := (covers span).mpr ⟨inside, isCovered⟩
    exact ⟨_, List.mem_map.mpr ⟨span, List.mem_filter.mpr
      ⟨member, decide_eq_true (both.1.trans_lt both.2)⟩, rfl⟩, both, rfl⟩

/-- What a range reports of an employee at an instant. -/
structure Reports (site : Site) (mirror : List MirrorRow) (asOf verifiedThrough start stop : ℤ)
    (employeeId moment : ℤ) (label : Location) : Prop where
  reading : SaysAt (rangeContext site asOf verifiedThrough (rangeRows site mirror start stop))
    (rowsOf (rangeRows site mirror start stop) employeeId) moment label
  carries : label.status = .staleOpenLocation →
    CarriesAt (rangeContext site asOf verifiedThrough (rangeRows site mirror start stop))
      (rowsOf (rangeRows site mirror start stop) employeeId) moment label.appWorkCenterName

section

variable (returned : timelineForRange site mirror asOf completed start stop = .ok spans)
include returned

theorem reports_of_timelineForRange {span : LocationSpan} (member : span ∈ spansOf spans employeeId)
    (covers : span.Covers moment) :
    ∃ verifiedThrough, completed = some verifiedThrough ∧
      Reports site mirror asOf verifiedThrough start stop employeeId moment span.label := by
  obtain ⟨inSpans, isOwn⟩ := List.mem_filter.mp member
  rcases timelineForRange_eq_ok returned with ⟨_, rfl⟩ | ⟨verifiedThrough, known, projected, ran, rfl⟩
  · cases inSpans
  · refine ⟨verifiedThrough, known, ?_⟩
    obtain ⟨_, original, isProjected, isCovered, label⟩ :=
      labelledAt_clipSpans.mp ⟨span, inSpans, covers, rfl⟩
    have isOwn : original.label.employeeOdooId = employeeId := by
      have clipped := of_decide_eq_true isOwn
      rw [← label] at clipped
      exact clipped
    have own : original ∈ spansOf projected employeeId :=
      List.mem_filter.mpr ⟨isProjected, decide_eq_true isOwn⟩
    obtain ⟨employee, attendanceIds, status, workCenter, app⟩ :=
      saysAt_of_projectRows ran own isCovered
    have carried (isStale : original.label.status = .staleOpenLocation) :=
      carriesAt_of_projectRows ran own isStale isCovered
    rw [← label]
    exact ⟨⟨employee, attendanceIds, status, workCenter, app⟩,
      fun isStale => carried isStale⟩

theorem covers_iff_of_timelineForRange (employeeId : ℤ) (started : start ≤ moment)
    (lasts : moment < stop) :
    (∃ span ∈ spansOf spans employeeId, span.Covers moment) ↔
      ∃ source ∈ rangeRows site mirror start stop, source.employeeId = employeeId ∧
        source.checkIn ≤ moment ∧ moment < source.effectiveEnd asOf := by
  rcases timelineForRange_eq_ok returned with
    ⟨empty, rfl⟩ | ⟨verifiedThrough, _, projected, ran, rfl⟩
  · rw [empty]
    exact ⟨fun ⟨_, member, _⟩ => absurd (List.mem_filter.mp member).1 List.not_mem_nil,
      fun ⟨_, member, _⟩ => absurd member List.not_mem_nil⟩
  · refine Iff.trans ?_ (covers_iff_of_projectRows ran employeeId moment)
    constructor
    · rintro ⟨span, member, covers⟩
      obtain ⟨inSpans, isOwn⟩ := List.mem_filter.mp member
      obtain ⟨_, original, isProjected, isCovered, label⟩ :=
        labelledAt_clipSpans.mp ⟨span, inSpans, covers, rfl⟩
      have clipped := of_decide_eq_true isOwn
      rw [← label] at clipped
      exact ⟨original, List.mem_filter.mpr ⟨isProjected, decide_eq_true clipped⟩, isCovered⟩
    · rintro ⟨original, member, covers⟩
      obtain ⟨isProjected, isOwn⟩ := List.mem_filter.mp member
      obtain ⟨span, inSpans, isCovered, label⟩ :=
        labelledAt_clipSpans.mpr ⟨⟨started, lasts⟩, original, isProjected, covers, rfl⟩
      refine ⟨span, List.mem_filter.mpr ⟨inSpans, ?_⟩, isCovered⟩
      rw [label]
      exact isOwn

theorem nodup_rangeRows : (rangeRows site mirror start stop).Nodup := by
  rcases timelineForRange_eq_ok returned with ⟨empty, _⟩ | ⟨_, _, _, ran, _⟩
  · rw [empty]
    exact List.nodup_nil
  · exact (nodup_ids_of_projectRows ran).of_map _

end

/-- The rows present are the same up to their order. -/
theorem InBoth.present_perm {first second : ℤ × ℤ} (both : InBoth first second moment)
    (distinct : (rangeRows site mirror first.1 first.2).Nodup)
    (alsoDistinct : (rangeRows site mirror second.1 second.2).Nodup) (context : ProjectContext)
    (employeeId : ℤ) :
    (presentAt context (rowsOf (rangeRows site mirror first.1 first.2) employeeId) moment).Perm
      (presentAt context (rowsOf (rangeRows site mirror second.1 second.2) employeeId) moment) :=
  (List.perm_ext_iff_of_nodup ((distinct.filter _).filter _) ((alsoDistinct.filter _).filter _)).mpr
    (both.present_iff context employeeId)

/-- Without such a row both ranges carry the same name. -/
theorem InBoth.carried_eq {first second : ℤ × ℤ} (both : InBoth first second moment)
    {context : ProjectContext} {employeeId : ℤ} {one other : Option String}
    (present : (presentAt context (rowsOf (rangeRows site mirror first.1 first.2) employeeId)
      moment).Perm
        (presentAt context (rowsOf (rangeRows site mirror second.1 second.2) employeeId) moment))
    (stale : StaleActive context
      (presentAt context (rowsOf (rangeRows site mirror first.1 first.2) employeeId) moment) moment)
    (unbroken : ¬EndedWhileStale context (rowsOf (liveRows site mirror) employeeId) moment
      (min (contextStart site first.1) (contextStart site second.1))
      (max (contextStart site first.1) (contextStart site second.1)))
    (carries : CarriesAt context (rowsOf (rangeRows site mirror first.1 first.2) employeeId) moment one)
    (alsoCarries : CarriesAt context (rowsOf (rangeRows site mirror second.1 second.2) employeeId)
      moment other) : one = other := by
  have alsoStale : StaleActive context (presentAt context
      (rowsOf (rangeRows site mirror second.1 second.2) employeeId) moment) moment := by
    obtain ⟨isStale, source, isPresent, found⟩ := stale
    exact ⟨isStale, source, present.mem_iff.mp isPresent, found⟩
  by_cases fresh :
      FreshBefore context (rowsOf (rangeRows site mirror first.1 first.2) employeeId) moment
  · have alsoFresh := both.freshBefore context stale unbroken fresh
    rw [carries.kept fresh, alsoCarries.kept alsoFresh, soleWorkCenter_eq_of_perm present]
  · have notFresh : ¬FreshBefore context
        (rowsOf (rangeRows site mirror second.1 second.2) employeeId) moment := by
      intro alsoFresh
      rw [min_comm, max_comm] at unbroken
      exact fresh (both.symm.freshBefore context alsoStale unbroken alsoFresh)
    rw [carries.dropped fresh, alsoCarries.dropped notFresh]

/-- Two ranges report the same of an instant in both, but for the app work center of a stale
instant when a row that only one of them has read ended while an active row was stale. -/
theorem timelineForRange_agree {completed : Option ℤ} {first second : ℤ × ℤ}
    {firstSpans secondSpans : List LocationSpan}
    (returned : timelineForRange site mirror asOf completed first.1 first.2 = .ok firstSpans)
    (alsoReturned : timelineForRange site mirror asOf completed second.1 second.2 = .ok secondSpans)
    (both : InBoth first second moment) (employeeId : ℤ) :
    ((∃ span ∈ spansOf firstSpans employeeId, span.Covers moment) ↔
        ∃ other ∈ spansOf secondSpans employeeId, other.Covers moment) ∧
      ∀ span ∈ spansOf firstSpans employeeId, span.Covers moment →
        ∀ other ∈ spansOf secondSpans employeeId, other.Covers moment →
          span.label.status = other.label.status ∧
          span.label.odooWorkCenterId = other.label.odooWorkCenterId ∧
          span.label.attendanceIds = other.label.attendanceIds ∧
          (span.label.appWorkCenterName = other.label.appWorkCenterName ∨
            span.label.status = .staleOpenLocation ∧ ∃ verifiedThrough ∈ completed,
              EndedWhileStale (rangeContext site asOf verifiedThrough (liveRows site mirror))
                (rowsOf (liveRows site mirror) employeeId) moment
                (min (contextStart site first.1) (contextStart site second.1))
                (max (contextStart site first.1) (contextStart site second.1))) := by
  refine ⟨?_, fun span member covers other isOther alsoCovers => ?_⟩
  · rw [covers_iff_of_timelineForRange returned employeeId both.firstStarted both.firstLasts,
      covers_iff_of_timelineForRange alsoReturned employeeId both.secondStarted both.secondLasts]
    have same (source : SourceRow) := @InBoth.present_iff site mirror moment first second both
      (rangeContext site asOf 0 []) employeeId source
    refine exists_congr fun source => ?_
    have one := same source
    rw [mem_presentAt, mem_presentAt, mem_rowsOf, mem_rowsOf, and_assoc, and_assoc] at one
    exact one
  · obtain ⟨verifiedThrough, known, reports⟩ := reports_of_timelineForRange returned member covers
    obtain ⟨_, alsoKnown, alsoReports⟩ :=
      reports_of_timelineForRange alsoReturned isOther alsoCovers
    obtain rfl := Option.some.inj (known.symm.trans alsoKnown)
    have present := both.present_perm (nodup_rangeRows returned) (nodup_rangeRows alsoReturned)
      (rangeContext site asOf verifiedThrough (rangeRows site mirror first.1 first.2)) employeeId
    have status : span.label.status = other.label.status :=
      reports.reading.status.trans ((both.statusAt_eq asOf verifiedThrough employeeId).trans
        alsoReports.reading.status.symm)
    have workCenter := soleWorkCenter_eq_of_perm present
    refine ⟨status, reports.reading.workCenter.trans
      (workCenter.trans alsoReports.reading.workCenter.symm),
      reports.reading.attendanceIds.trans ((attendanceIdsOf_eq_of_perm present).trans
        alsoReports.reading.attendanceIds.symm), ?_⟩
    by_cases isStale : span.label.status = .staleOpenLocation
    · rw [or_iff_not_imp_right]
      intro unbroken
      have alsoCarries := alsoReports.carries (status ▸ isStale)
      refine both.carried_eq present ?_ (fun ended => unbroken ⟨isStale, verifiedThrough, known, ended⟩)
        (reports.carries isStale) ⟨alsoCarries.kept, alsoCarries.dropped⟩
      exact staleActive_iff_statusAt.mpr (reports.reading.status.symm.trans isStale)
    · left
      rw [reports.reading.app isStale, alsoReports.reading.app (status ▸ isStale), mappedWorkCenterAt,
        mappedWorkCenterAt, both.statusAt_eq asOf verifiedThrough employeeId, workCenter]
      rfl

/-- A plant with one work center. -/
def oneWorkCenter : Site where
  calendar := uniformCalendar
  lower := id
  people _ := none
  departments _ := none
  appWorkCenterNameForOdooId workCenterId := if workCenterId = 5 then some "Saw 1" else none

/-- An open row from 22:00 that overlaps a row from 21:00 to 23:00. -/
def overlappingEvening : List MirrorRow :=
  let minute : ℤ := 60000000
  let row (attendanceId checkIn : ℤ) (checkOut : Option ℤ) : MirrorRow :=
    { source :=
        { attendanceId := attendanceId
          employeeId := 1
          employeeName := "Ann"
          checkIn := checkIn
          checkOut := checkOut
          workCenterId := some 5
          workCenterName := none
          departmentId := none
          departmentName := some "Saw"
          wageType := none
          writeDate := checkIn }
      deletedAt := none }
  [row 1 (1320 * minute) none, row 2 (1260 * minute) (some (1380 * minute))]

/-- From the next day on only the open row is read; it was stale when the other one ended. -/
theorem timelineForRange_depends_on_range :
    ∃ firstSpans secondSpans,
      timelineForRange oneWorkCenter overlappingEvening 122400000000 (some 81000000000)
        86400000000 118800000000 = .ok firstSpans ∧
      timelineForRange oneWorkCenter overlappingEvening 122400000000 (some 81000000000)
        72000000000 118800000000 = .ok secondSpans ∧
      ∃ span ∈ spansOf firstSpans 1, span.Covers 115200000000 ∧
        ∃ other ∈ spansOf secondSpans 1, other.Covers 115200000000 ∧
          span.label.appWorkCenterName = some "Saw 1" ∧ other.label.appWorkCenterName = none := by
  have differ : ((timelineForRange oneWorkCenter overlappingEvening 122400000000 (some 81000000000)
      86400000000 118800000000).toOption.bind fun firstSpans =>
      (timelineForRange oneWorkCenter overlappingEvening 122400000000 (some 81000000000)
        72000000000 118800000000).toOption.map fun secondSpans =>
      decide (∃ span ∈ spansOf firstSpans 1, span.Covers 115200000000 ∧
        ∃ other ∈ spansOf secondSpans 1, other.Covers 115200000000 ∧
          span.label.appWorkCenterName = some "Saw 1" ∧ other.label.appWorkCenterName = none)) =
      some true := by
    decide +kernel
  obtain ⟨firstSpans, isFirst, differ⟩ := Option.bind_eq_some_iff.mp differ
  obtain ⟨secondSpans, isSecond, differ⟩ := Option.map_eq_some_iff.mp differ
  exact ⟨firstSpans, secondSpans, eq_ok_of_toOption isFirst, eq_ok_of_toOption isSecond,
    of_decide_eq_true differ⟩

/-- Two ranges of one day. -/
theorem timelineForRange_agree_evening :
    ∃ firstSpans secondSpans,
      timelineForRange oneWorkCenter overlappingEvening 122400000000 (some 81000000000)
        86400000000 118800000000 = .ok firstSpans ∧
      timelineForRange oneWorkCenter overlappingEvening 122400000000 (some 81000000000)
        90000000000 118800000000 = .ok secondSpans ∧
      ∀ span ∈ spansOf firstSpans 1, span.Covers 115200000000 →
        ∀ other ∈ spansOf secondSpans 1, other.Covers 115200000000 →
          span.label.attendanceIds = other.label.attendanceIds := by
  have returns : ((timelineForRange oneWorkCenter overlappingEvening 122400000000 (some 81000000000)
      86400000000 118800000000).toOption.bind fun _ =>
      (timelineForRange oneWorkCenter overlappingEvening 122400000000 (some 81000000000)
        90000000000 118800000000).toOption.map fun _ => true) = some true := by
    decide +kernel
  obtain ⟨firstSpans, isFirst, returns⟩ := Option.bind_eq_some_iff.mp returns
  obtain ⟨secondSpans, isSecond, _⟩ := Option.map_eq_some_iff.mp returns
  have both : InBoth (86400000000, 118800000000) (90000000000, 118800000000) 115200000000 := by
    constructor <;> decide
  have agree := (timelineForRange_agree (eq_ok_of_toOption isFirst) (eq_ok_of_toOption isSecond) both
    1).2
  exact ⟨firstSpans, secondSpans, eq_ok_of_toOption isFirst, eq_ok_of_toOption isSecond,
    fun span member covers other isOther alsoCovers =>
      (agree span member covers other isOther alsoCovers).2.2.1⟩

end PlantManager.Attendance.Projection

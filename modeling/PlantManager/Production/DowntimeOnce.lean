import PlantManager.Attendance.ProjectionReference
import PlantManager.Production.ShiftHours
import PlantManager.Timeline.TotalLength

/-! # Downtime that is counted once

The downtime of a station comes from rows that say how long it stood still. Each row is cut to the
time after the last unit, to activity and to the time outside the breaks, but not to the time that
other rows have not said yet. So downtime is counted once exactly when no two rows say the same
moment (`Production.Leaderboard.downtime_once_iff`).
-/

namespace PlantManager.Production.Leaderboard

open Ranking Timeline

/-! ## Pieces outside of breaks -/

/-- The first interval lies in the second. -/
def Within (inner outer : Interval) : Prop := outer.1 ≤ inner.1 ∧ inner.2 ≤ outer.2

theorem Within.refl (interval : Interval) : Within interval interval := ⟨le_rfl, le_rfl⟩

theorem Within.trans {first second third : Interval} (one : Within first second)
    (two : Within second third) : Within first third :=
  ⟨two.1.trans one.1, one.2.trans two.2⟩

theorem Within.inside {inner outer : Interval} (within : Within inner outer) {moment : ℤ}
    (inside : Inside inner moment) : Inside outer moment :=
  ⟨within.1.trans inside.1, inside.2.trans_le within.2⟩

theorem apart_within {first second outer other : Interval} (one : Within first outer)
    (two : Within second other) (apart : Apart outer other) : Apart first second :=
  fun moment inside also => apart moment (one.inside inside) (two.inside also)

/-- Pieces of intervals are apart if those of each interval are, and the intervals are. -/
theorem pairwise_apart_flatMap {α : Type*} {items : List α} {cut : α → List Interval}
    (each : ∀ item ∈ items, (cut item).Pairwise Apart)
    (across : items.Pairwise fun first second =>
      ∀ moment, ActiveAt (cut first) moment → ¬ActiveAt (cut second) moment) :
    (items.flatMap cut).Pairwise Apart := by
  refine List.pairwise_flatMap.mpr ⟨each, across.imp fun {first second} apart => ?_⟩
  intro one inFirst two inSecond moment inside also
  exact apart moment ⟨one, inFirst, inside⟩ ⟨two, inSecond, also⟩

theorem activeAt_flatMap {α : Type*} {items : List α} {cut : α → List Interval} {moment : ℤ} :
    ActiveAt (items.flatMap cut) moment ↔ ∃ item ∈ items, ActiveAt (cut item) moment := by
  unfold ActiveAt
  simp only [List.mem_flatMap]
  constructor
  · rintro ⟨piece, ⟨item, member, inside⟩, holds⟩
    exact ⟨item, member, piece, inside, holds⟩
  · rintro ⟨item, member, piece, inside, holds⟩
    exact ⟨piece, ⟨item, member, inside⟩, holds⟩

/-- What one break leaves of one piece. -/
def cutPiece (shiftBreak piece : Interval) : List Interval :=
  if shiftBreak.2 ≤ piece.1 ∨ piece.2 ≤ shiftBreak.1 then [piece]
  else
    (if piece.1 < shiftBreak.1 then [(piece.1, min piece.2 shiftBreak.1)] else []) ++
      if shiftBreak.2 < piece.2 then [(max piece.1 shiftBreak.2, piece.2)] else []

theorem subtractBreak_eq (pieces : List Interval) (shiftBreak : Interval) :
    subtractBreak pieces shiftBreak = pieces.flatMap (cutPiece shiftBreak) := rfl

variable {shiftBreak : Interval} {pieces : List Interval}

variable {piece : Interval} {breaks : List Interval}

theorem within_cutPiece {cut : Interval} (member : cut ∈ cutPiece shiftBreak piece) :
    Within cut piece := by
  unfold cutPiece at member
  split at member
  · rw [List.mem_singleton.mp member]
    exact Within.refl piece
  · rcases List.mem_append.mp member with first | second
    · split at first
      · rw [List.mem_singleton.mp first]
        exact ⟨le_rfl, min_le_left _ _⟩
      · cases first
    · split at second
      · rw [List.mem_singleton.mp second]
        exact ⟨le_max_left _ _, le_rfl⟩
      · cases second

theorem activeAt_cutPiece_iff (shiftBreak piece : Interval) (moment : ℤ) :
    ActiveAt (cutPiece shiftBreak piece) moment ↔
      Inside piece moment ∧ ¬Inside shiftBreak moment := by
  unfold cutPiece ActiveAt Inside
  split
  · next apart =>
      simp only [List.mem_singleton, exists_eq_left]
      omega
  · next meet =>
      simp only [List.mem_append, or_and_right, exists_or]
      split <;> split <;>
        simp only [List.mem_singleton, exists_eq_left, List.not_mem_nil, false_and, exists_false,
          or_false, false_or, false_iff] <;> omega

theorem activeAt_subtractBreak_iff {moment : ℤ} :
    ActiveAt (subtractBreak pieces shiftBreak) moment ↔
      ActiveAt pieces moment ∧ ¬Inside shiftBreak moment := by
  rw [subtractBreak_eq, activeAt_flatMap]
  simp only [activeAt_cutPiece_iff]
  constructor
  · rintro ⟨piece, member, inside, outside⟩
    exact ⟨⟨piece, member, inside⟩, outside⟩
  · rintro ⟨⟨piece, member, inside⟩, outside⟩
    exact ⟨piece, member, inside, outside⟩

theorem foldl_subtractBreak_iff {moment : ℤ} :
    ActiveAt (breaks.foldl subtractBreak pieces) moment ↔
      ActiveAt pieces moment ∧ ∀ shiftBreak ∈ breaks, ¬Inside shiftBreak moment := by
  induction breaks generalizing pieces with
  | nil => simp
  | cons shiftBreak rest ih =>
      rw [List.foldl_cons, ih, activeAt_subtractBreak_iff, List.forall_mem_cons, and_assoc]

/-- A break that begins after its end would leave two pieces that meet. -/
theorem pairwise_cutPiece (forward : shiftBreak.1 ≤ shiftBreak.2) (piece : Interval) :
    (cutPiece shiftBreak piece).Pairwise Apart := by
  unfold cutPiece
  split
  · exact List.pairwise_singleton _ _
  · refine List.pairwise_append.mpr ⟨?_, ?_, ?_⟩
    · split
      · exact List.pairwise_singleton _ _
      · exact .nil
    · split
      · exact List.pairwise_singleton _ _
      · exact .nil
    · intro first inFirst second inSecond moment before after
      split at inFirst
      swap
      · cases inFirst
      split at inSecond
      swap
      · cases inSecond
      rw [List.mem_singleton.mp inFirst] at before
      rw [List.mem_singleton.mp inSecond] at after
      have early := before.2.trans_le (min_le_right _ _)
      have late := (le_max_right _ _).trans after.1
      omega

theorem pairwise_subtractBreak (forward : shiftBreak.1 ≤ shiftBreak.2)
    (apart : pieces.Pairwise Apart) : (subtractBreak pieces shiftBreak).Pairwise Apart := by
  refine pairwise_apart_flatMap (fun piece _ => pairwise_cutPiece forward piece) ?_
  refine apart.imp fun {first second} apart moment one two => ?_
  have inside := ((activeAt_cutPiece_iff shiftBreak first moment).mp one).1
  exact apart moment inside ((activeAt_cutPiece_iff shiftBreak second moment).mp two).1

theorem pairwise_foldl_subtractBreak (forward : ∀ shiftBreak ∈ breaks, shiftBreak.1 ≤ shiftBreak.2)
    (apart : pieces.Pairwise Apart) : (breaks.foldl subtractBreak pieces).Pairwise Apart := by
  induction breaks generalizing pieces with
  | nil => exact apart
  | cons shiftBreak rest ih =>
      obtain ⟨head, later⟩ := List.forall_mem_cons.mp forward
      exact ih later (pairwise_subtractBreak head apart)

theorem within_foldl_subtractBreak (member : piece ∈ breaks.foldl subtractBreak pieces) :
    ∃ outer ∈ pieces, Within piece outer := by
  induction breaks generalizing pieces with
  | nil => exact ⟨piece, member, Within.refl piece⟩
  | cons shiftBreak rest ih =>
      obtain ⟨between, cut, within⟩ := ih member
      obtain ⟨outer, inside, cut⟩ := List.mem_flatMap.mp cut
      exact ⟨outer, inside, within.trans (within_cutPiece cut)⟩

/-! ## Activity -/

theorem pairwise_zip_tail {samples : List (ℤ × ℤ)}
    (sorted : samples.Pairwise fun first second => first.1 ≤ second.1) :
    (samples.zip samples.tail).Pairwise fun first second => first.2.1 ≤ second.1.1 := by
  induction samples with
  | nil => exact .nil
  | cons first rest ih =>
      cases rest with
      | nil => exact .nil
      | cons second rest =>
          obtain ⟨-, sorted⟩ := List.pairwise_cons.mp sorted
          refine List.pairwise_cons.mpr ⟨fun pair member => ?_, ih sorted⟩
          have inside := (List.of_mem_zip member).1
          rcases List.mem_cons.mp inside with same | later
          · rw [same]
          · exact (List.pairwise_cons.mp sorted).1 _ later

theorem zip_tail_le {samples : List (ℤ × ℤ)}
    (sorted : samples.Pairwise fun first second => first.1 ≤ second.1) :
    ∀ pair ∈ samples.zip samples.tail, pair.1.1 ≤ pair.2.1 := by
  induction samples with
  | nil => exact nofun
  | cons first rest ih =>
      cases rest with
      | nil => exact nofun
      | cons second rest =>
          obtain ⟨head, sorted⟩ := List.pairwise_cons.mp sorted
          exact List.forall_mem_cons.mpr ⟨head second List.mem_cons_self, ih sorted⟩

theorem le_getLast {samples : List (ℤ × ℤ)} {sample last : ℤ × ℤ}
    (sorted : samples.Pairwise fun first second => first.1 ≤ second.1)
    (held : samples.getLast? = some last) (member : sample ∈ samples) : sample.1 ≤ last.1 := by
  obtain ⟨front, rfl⟩ := List.getLast?_eq_some_iff.mp held
  rcases List.mem_append.mp member with early | isLast
  · exact (List.pairwise_append.mp sorted).2.2 sample early last (List.mem_singleton_self last)
  · rw [List.mem_singleton.mp isLast]

/-- The stretches of activity follow one another. -/
theorem pairwise_activeIntervals {samples : List (ℤ × ℤ)} {endOfDay : ℤ}
    (sorted : samples.Pairwise fun first second => first.1 ≤ second.1) :
    (activeIntervals samples endOfDay).Pairwise Apart := by
  have apart : ∀ {first second : Interval}, first.2 ≤ second.1 → Apart first second :=
    fun before moment inside also => absurd inside.2 (not_lt.mpr (before.trans also.1))
  unfold activeIntervals
  cases held : samples.getLast? with
  | none => exact .nil
  | some last =>
      refine List.pairwise_append.mpr ⟨?_, ?_, ?_⟩
      · refine (pairwise_zip_tail sorted).filterMap _ fun first second before one isOne two isTwo => ?_
        split at isOne
        swap
        · cases isOne
        split at isTwo
        swap
        · cases isTwo
        rw [← Option.some.inj isOne, ← Option.some.inj isTwo]
        exact apart before
      · split
        · exact List.pairwise_singleton _ _
        · exact .nil
      · intro one inOne two inTwo
        obtain ⟨pair, member, isOne⟩ := List.mem_filterMap.mp inOne
        split at isOne
        swap
        · cases isOne
        split at inTwo
        swap
        · cases inTwo
        rw [← Option.some.inj isOne, List.mem_singleton.mp inTwo]
        have inside : pair.2 ∈ samples := List.mem_of_mem_tail (List.of_mem_zip member).2
        have before : pair.2.1 ≤ last.1 := le_getLast sorted held inside
        exact apart before

theorem activeIntervals_forward {samples : List (ℤ × ℤ)} {endOfDay : ℤ}
    (sorted : samples.Pairwise fun first second => first.1 ≤ second.1) :
    ∀ interval ∈ activeIntervals samples endOfDay, interval.1 ≤ interval.2 := by
  intro interval member
  unfold activeIntervals at member
  cases held : samples.getLast? with
  | none =>
      rw [held] at member
      cases member
  | some last =>
      rw [held] at member
      rcases List.mem_append.mp member with between | final
      · obtain ⟨pair, member, isPair⟩ := List.mem_filterMap.mp between
        split at isPair
        swap
        · cases isPair
        rw [← Option.some.inj isPair]
        exact zip_tail_le sorted pair member
      · split at final
        swap
        · cases final
        next lasts =>
          rw [List.mem_singleton.mp final]
          exact lasts.le

/-! ## Breaks of the plant -/

/-- The breaks of each day run forward, and on that day. -/
def Plant.BreaksInDay (plant : Plant) : Prop :=
  ∀ day, ∀ shiftBreak ∈ (plant.shiftOf day).breaks,
    plant.calendar.dayStart day ≤ plant.combine day shiftBreak.1 ∧
      plant.combine day shiftBreak.1 ≤ plant.combine day shiftBreak.2 ∧
        plant.combine day shiftBreak.2 ≤ plant.calendar.dayStart (day + 1)

/-- A moment is in a break of its day. -/
def Plant.InBreak (plant : Plant) (moment : ℤ) : Prop :=
  ∃ shiftBreak ∈ (plant.shiftOf (plant.calendar.dayOf moment)).breaks,
    plant.combine (plant.calendar.dayOf moment) shiftBreak.1 ≤ moment ∧
      moment < plant.combine (plant.calendar.dayOf moment) shiftBreak.2

instance (plant : Plant) : DecidablePred plant.InBreak := fun _ =>
  inferInstanceAs (Decidable (∃ shiftBreak ∈ _, _))

/-- The breaks of the days that an interval touches, as instants. -/
def Plant.breaksBetween (plant : Plant) (start stop : ℤ) : List Interval :=
  let first := plant.calendar.dayOf start
  ((List.range (plant.calendar.dayOf stop + 1 - first).toNat).map (first + ·)).flatMap fun day =>
    (plant.shiftOf day).breaks.map fun shiftBreak =>
      (plant.combine day shiftBreak.1, plant.combine day shiftBreak.2)

section Plant

variable {plant : Plant} {start stop moment : ℤ}

theorem mem_breaksBetween {interval : Interval} :
    interval ∈ plant.breaksBetween start stop ↔
      ∃ day, plant.calendar.dayOf start ≤ day ∧ day ≤ plant.calendar.dayOf stop ∧
        ∃ shiftBreak ∈ (plant.shiftOf day).breaks,
          (plant.combine day shiftBreak.1, plant.combine day shiftBreak.2) = interval := by
  unfold Plant.breaksBetween
  simp only [List.mem_flatMap, List.mem_map, List.bind_eq_flatMap, List.pure_def, List.mem_singleton,
    List.mem_range]
  constructor
  · rintro ⟨day, ⟨steps, ⟨count, few, rfl⟩, rfl⟩, held⟩
    exact ⟨_, by omega, by omega, held⟩
  · rintro ⟨day, after, before, held⟩
    exact ⟨day, ⟨day - plant.calendar.dayOf start,
      ⟨(day - plant.calendar.dayOf start).toNat, by omega, by omega⟩, by omega⟩, held⟩

variable (inDay : plant.BreaksInDay)

include inDay

theorem inBreak_iff (inside : Inside (start, stop) moment) :
    plant.InBreak moment ↔ ∃ shiftBreak ∈ plant.breaksBetween start stop,
      Inside shiftBreak moment := by
  constructor
  · rintro ⟨shiftBreak, member, holds⟩
    exact ⟨_, mem_breaksBetween.mpr ⟨plant.calendar.dayOf moment,
      plant.calendar.dayOf_mono inside.1, plant.calendar.dayOf_mono inside.2.le, shiftBreak,
      member, rfl⟩, holds⟩
  · rintro ⟨interval, member, holds⟩
    obtain ⟨day, -, -, shiftBreak, listed, rfl⟩ := mem_breaksBetween.mp member
    obtain ⟨after, -, before⟩ := inDay day shiftBreak listed
    have same : plant.calendar.dayOf moment = day := (plant.calendar.dayOf_eq_iff moment day).mpr
      ⟨after.trans holds.1, holds.2.trans_le before⟩
    unfold Plant.InBreak
    rw [same]
    exact ⟨shiftBreak, listed, holds⟩

theorem activeAt_subtractBreaks_iff :
    ActiveAt (subtractBreaks plant start stop) moment ↔
      Inside (start, stop) moment ∧ ¬plant.InBreak moment := by
  have filtered : ActiveAt (subtractBreaks plant start stop) moment ↔
      ActiveAt ((plant.breaksBetween start stop).foldl subtractBreak [(start, stop)]) moment := by
    constructor
    · rintro ⟨piece, member, inside⟩
      exact ⟨piece, List.mem_of_mem_filter member, inside⟩
    · rintro ⟨piece, member, inside⟩
      have lasts := inside.1.trans_lt inside.2
      exact ⟨piece, List.mem_filter.mpr ⟨member, decide_eq_true lasts⟩, inside⟩
  rw [filtered, foldl_subtractBreak_iff]
  have one : ActiveAt [(start, stop)] moment ↔ Inside (start, stop) moment := by
    simp [ActiveAt]
  rw [one]
  refine and_congr_right fun inside => ?_
  rw [inBreak_iff inDay inside]
  simp only [not_exists, not_and]

theorem pairwise_subtractBreaks : (subtractBreaks plant start stop).Pairwise Apart := by
  refine (pairwise_foldl_subtractBreak (fun interval member => ?_)
    (List.pairwise_singleton _ _)).filter _
  obtain ⟨day, -, -, shiftBreak, listed, rfl⟩ := mem_breaksBetween.mp member
  exact (inDay day shiftBreak listed).2.1

end Plant

theorem within_subtractBreaks {plant : Plant} {start stop : ℤ}
    (member : piece ∈ subtractBreaks plant start stop) :
    Within piece (start, stop) ∧ piece.1 < piece.2 := by
  obtain ⟨cut, lasts⟩ := List.mem_filter.mp member
  obtain ⟨outer, only, within⟩ := within_foldl_subtractBreak cut
  rw [List.mem_singleton.mp only] at within
  exact ⟨within, of_decide_eq_true lasts⟩

/-! ## Rows that say a moment -/

/-- When the downtime of a row begins. -/
def eventStart (samples : List (ℤ × ℤ)) (row : ℤ × ℤ) : ℤ :=
  match ((sortKeys (samples.map Prod.fst)).filter (· < row.1)).getLast? with
  | none => row.1 - minute * row.2
  | some sampleTime => max (row.1 - minute * row.2) sampleTime

/-- The downtime of one row. -/
def rowPieces (plant : Plant) (samples : List (ℤ × ℤ)) (endOfDay : ℤ) (row : ℤ × ℤ) :
    List Interval :=
  (activeIntervals samples endOfDay).flatMap fun interval =>
    let left := max (eventStart samples row) interval.1
    let right := min row.1 interval.2
    if left < right then subtractBreaks plant left right else []

theorem adjustedDowntimeIntervals_eq (plant : Plant) (downtimeRows samples : List (ℤ × ℤ))
    (endOfDay : ℤ) : adjustedDowntimeIntervals plant downtimeRows samples endOfDay =
      sortBy toLex (downtimeRows.flatMap (rowPieces plant samples endOfDay)) := rfl

theorem eventStart_le_iff {samples : List (ℤ × ℤ)} {row : ℤ × ℤ} {moment : ℤ} :
    eventStart samples row ≤ moment ↔ row.1 - minute * row.2 ≤ moment ∧
      ∀ sample ∈ samples, sample.1 < row.1 → sample.1 ≤ moment := by
  have mem : ∀ time, time ∈ (sortKeys (samples.map Prod.fst)).filter (· < row.1) ↔
      (∃ sample ∈ samples, sample.1 = time) ∧ time < row.1 := by
    intro time
    rw [List.mem_filter, (sortKeys_perm _).mem_iff, List.mem_map, decide_eq_true_iff]
  have sorted := (pairwise_sortKeys (samples.map Prod.fst)).filter (· < row.1)
  unfold eventStart
  cases held : ((sortKeys (samples.map Prod.fst)).filter (· < row.1)).getLast? with
  | none =>
      rw [List.getLast?_eq_none_iff] at held
      refine (and_iff_left fun sample member before => ?_).symm
      have inside := (mem sample.1).mpr ⟨⟨sample, member, rfl⟩, before⟩
      rw [held] at inside
      cases inside
  | some sampleTime =>
      obtain ⟨front, same⟩ := List.getLast?_eq_some_iff.mp held
      have inside : sampleTime ∈ (sortKeys (samples.map Prod.fst)).filter (· < row.1) := by
        rw [same]
        exact List.mem_append_right _ (List.mem_singleton_self _)
      rw [max_le_iff]
      refine and_congr_right fun _ => ⟨fun last sample member before => ?_, fun all => ?_⟩
      · have listed := (mem sample.1).mpr ⟨⟨sample, member, rfl⟩, before⟩
        rw [same] at listed sorted
        rcases List.mem_append.mp listed with early | isLast
        · have order := (List.pairwise_append.mp sorted).2.2 _ early _ (List.mem_singleton_self _)
          exact order.trans last
        · rw [List.mem_singleton.mp isLast]
          exact last
      · obtain ⟨⟨sample, member, rfl⟩, before⟩ := (mem sampleTime).mp inside
        exact all sample member before

section Rows

variable {plant : Plant} {samples : List (ℤ × ℤ)} {endOfDay moment : ℤ} {row : ℤ × ℤ}

/-- A row says that the station stood still at a moment of activity outside the breaks. -/
def Says (plant : Plant) (samples : List (ℤ × ℤ)) (endOfDay moment : ℤ) (row : ℤ × ℤ) : Prop :=
  (row.1 - minute * row.2 ≤ moment ∧ moment < row.1) ∧
    (∀ sample ∈ samples, sample.1 < row.1 → sample.1 ≤ moment) ∧
      ActiveAt (activeIntervals samples endOfDay) moment ∧ ¬plant.InBreak moment

theorem mem_rowPieces {piece : Interval} (member : piece ∈ rowPieces plant samples endOfDay row) :
    piece.1 < piece.2 ∧ eventStart samples row ≤ piece.1 ∧ piece.2 ≤ row.1 ∧
      ∃ interval ∈ activeIntervals samples endOfDay, Within piece interval := by
  obtain ⟨interval, active, cut⟩ := List.mem_flatMap.mp member
  dsimp only at cut
  split at cut
  swap
  · cases cut
  obtain ⟨within, lasts⟩ := within_subtractBreaks cut
  obtain ⟨from_left, to_right⟩ := within
  exact ⟨lasts, (le_max_left _ _).trans from_left, to_right.trans (min_le_left _ _), interval,
    active, (le_max_right _ _).trans from_left, to_right.trans (min_le_right _ _)⟩

variable (inDay : plant.BreaksInDay)

include inDay

theorem activeAt_rowPieces_iff :
    ActiveAt (rowPieces plant samples endOfDay row) moment ↔
      Says plant samples endOfDay moment row := by
  have part : ∀ interval : Interval, ActiveAt
      (if max (eventStart samples row) interval.1 < min row.1 interval.2 then
        subtractBreaks plant (max (eventStart samples row) interval.1) (min row.1 interval.2)
      else []) moment ↔ (eventStart samples row ≤ moment ∧ moment < row.1) ∧
        Inside interval moment ∧ ¬plant.InBreak moment := by
    intro interval
    have both : Inside (max (eventStart samples row) interval.1, min row.1 interval.2) moment ↔
        (eventStart samples row ≤ moment ∧ moment < row.1) ∧ Inside interval moment := by
      unfold Inside
      rw [max_le_iff, lt_min_iff]
      exact and_and_and_comm
    split
    · rw [activeAt_subtractBreaks_iff inDay, both, and_assoc]
    · next short =>
        rw [← and_assoc, ← both]
        constructor
        · rintro ⟨piece, member, -⟩
          cases member
        · rintro ⟨⟨after, before⟩, -⟩
          exact absurd (after.trans_lt before) short
  unfold rowPieces
  rw [activeAt_flatMap]
  simp only [part]
  rw [Says, ActiveAt, eventStart_le_iff]
  constructor
  · rintro ⟨interval, active, ⟨⟨began, after⟩, before⟩, inside, outside⟩
    exact ⟨⟨began, before⟩, after, ⟨interval, active, inside⟩, outside⟩
  · rintro ⟨⟨began, before⟩, after, ⟨interval, active, inside⟩, outside⟩
    exact ⟨interval, active, ⟨⟨began, after⟩, before⟩, inside, outside⟩

theorem pairwise_rowPieces (sorted : samples.Pairwise fun first second => first.1 ≤ second.1) :
    (rowPieces plant samples endOfDay row).Pairwise Apart := by
  refine List.pairwise_flatMap.mpr ⟨fun interval _ => ?_, ?_⟩
  · dsimp only
    split
    · exact pairwise_subtractBreaks inDay
    · exact .nil
  · refine (pairwise_activeIntervals sorted).imp fun {first second} apart => ?_
    intro one inOne two inTwo
    dsimp only at inOne inTwo
    split at inOne
    swap
    · cases inOne
    split at inTwo
    swap
    · cases inTwo
    have fits : ∀ {interval piece : Interval},
        piece ∈ subtractBreaks plant (max (eventStart samples row) interval.1)
          (min row.1 interval.2) → Within piece interval := fun member =>
      ⟨(le_max_right _ _).trans (within_subtractBreaks member).1.1,
        (within_subtractBreaks member).1.2.trans (min_le_right _ _)⟩
    exact apart_within (fits inOne) (fits inTwo) apart

/-- The downtime is made of intervals apart when no two rows say the same moment. -/
theorem pairwise_adjusted_iff (sorted : samples.Pairwise fun first second => first.1 ≤ second.1)
    (downtimeRows : List (ℤ × ℤ)) :
    (adjustedDowntimeIntervals plant downtimeRows samples endOfDay).Pairwise Apart ↔
      downtimeRows.Pairwise fun first second => ∀ moment,
        Says plant samples endOfDay moment first → ¬Says plant samples endOfDay moment second := by
  rw [adjustedDowntimeIntervals_eq, (sortBy_perm toLex _).pairwise_iff Apart.symm,
    List.pairwise_flatMap, and_iff_right fun row _ => pairwise_rowPieces inDay sorted]
  refine List.Pairwise.iff fun first second => ?_
  simp only [← activeAt_rowPieces_iff inDay]
  constructor
  · rintro apart moment ⟨one, inOne, inside⟩ ⟨two, inTwo, also⟩
    exact apart one inOne two inTwo moment inside also
  · intro apart one inOne two inTwo moment inside also
    exact apart moment ⟨one, inOne, inside⟩ ⟨two, inTwo, also⟩

end Rows

/-! ## The downtime of a station -/

/-- The rows of a fetch that say that the station stood still, by their ends and minutes. -/
def stopRows (plant : Plant) (rows : List Reading) : List (ℤ × ℤ) :=
  ((readPages maxPages rows).1.filter (isDowntime plant)).map fun reading =>
    (reading.eventDate, reading.duration.getD 0)

/-- Where activity ends at the latest. -/
def capOf (plant : Plant) (day : ℤ) (now : Option ℤ) : ℤ :=
  match now with
  | none => evalEnd plant day
  | some clock => min (evalEnd plant day) clock

/-- The whole minutes of breaks inside some intervals. -/
def breakMinutes (plant : Plant) (intervals : List Interval) : ℤ :=
  ((moments intervals).filter plant.InBreak).card / minute

/-- Downtime lies in activity, outside the breaks, and after the last unit before its row. It is
counted once, and there is no more of it than activity without the breaks. -/
structure CountedOnce (plant : Plant) (rows : List (ℤ × ℤ)) (total : StationTotal) : Prop where
  active : ∀ interval ∈ total.downtimeIntervals, ∃ active ∈ total.activeIntervals,
    Within interval active
  outside : ∀ interval ∈ total.downtimeIntervals, ∀ moment, Inside interval moment →
    ¬plant.InBreak moment
  said : ∀ interval ∈ total.downtimeIntervals, ∃ row ∈ rows,
    Within interval (row.1 - minute * row.2, row.1) ∧
      ∀ sample ∈ total.samples, sample.1 < row.1 → sample.1 ≤ interval.1
  once : totalLength total.downtimeIntervals = (moments total.downtimeIntervals).card
  minutes : total.downtimeMinutes ≤ total.activeMinutes - breakMinutes plant total.activeIntervals

theorem pairwise_samplesOf (plant : Plant) (rows : List Reading) :
    (samplesOf plant rows).Pairwise fun first second => first.1 ≤ second.1 :=
  pairwise_sortBy Prod.fst _

/-- Minutes that are counted once fit into activity without the breaks. -/
theorem minutesOf_le {plant : Plant} {downtime active : List Interval}
    (inside : ∀ interval ∈ downtime, ∃ outer ∈ active, Within interval outer)
    (outside : ∀ interval ∈ downtime, ∀ moment, Inside interval moment → ¬plant.InBreak moment)
    (forward : ∀ interval ∈ active, interval.1 ≤ interval.2)
    (once : totalLength downtime = (moments downtime).card) :
    minutesOf downtime ≤ minutesOf active - breakMinutes plant active := by
  have apart : Disjoint (moments downtime) ((moments active).filter plant.InBreak) := by
    rw [Finset.disjoint_left]
    intro moment still held
    obtain ⟨interval, member, within⟩ := mem_moments.mp still
    exact outside interval member moment within (Finset.mem_filter.mp held).2
  have both : moments downtime ∪ (moments active).filter plant.InBreak ⊆ moments active := by
    refine Finset.union_subset (fun moment still => ?_) (Finset.filter_subset _ _)
    obtain ⟨interval, member, holds⟩ := mem_moments.mp still
    obtain ⟨outer, listed, within⟩ := inside interval member
    exact mem_moments.mpr ⟨outer, listed, within.inside holds⟩
  have fewer := Finset.card_le_card both
  rw [Finset.card_union_of_disjoint apart] at fewer
  have all := card_moments_le forward
  unfold minutesOf breakMinutes
  change totalLength downtime / minute ≤ totalLength active / minute - _
  have oneMinute : minute = 60000000 := rfl
  rw [once, oneMinute]
  omega

/-- Breaks that run forward in times of the day run forward on the day. -/
theorem Site.west_breaksInDay {behind : ℤ} {nonneg : 0 ≤ behind} {settings : ShiftSettings}
    (forward : ∀ day, ∀ shiftBreak ∈ settings.breaksFor day,
      0 ≤ shiftBreak.1 ∧ shiftBreak.1 ≤ shiftBreak.2 ∧ shiftBreak.2 ≤ dayLength) :
    (Site.west behind nonneg settings).BreaksInDay := by
  intro day shiftBreak member
  obtain ⟨after, order, before⟩ := forward day shiftBreak member
  change day * dayLength + behind ≤ day * dayLength + behind + shiftBreak.1 ∧
    day * dayLength + behind + shiftBreak.1 ≤ day * dayLength + behind + shiftBreak.2 ∧
      day * dayLength + behind + shiftBreak.2 ≤ (day + 1) * dayLength + behind
  rw [add_mul, one_mul]
  omega

private theorem sixHours_nonneg : 0 ≤ 6 * 60 * minute := by decide

/-- Six hours behind Greenwich, from seven to half past three with a lunch at noon. -/
private def dayShift : Site := Site.west (6 * 60 * minute) sixHours_nonneg {
  schedule := ⟨7 * 60 * minute, 930 * minute, [(12 * 60 * minute, 750 * minute)]⟩
  workWeekdays := [0, 1, 2, 3, 4]
  saturday := ⟨6 * 60 * minute, 12 * 60 * minute, []⟩
  isHoliday := fun _ => false
  holidayPublished := fun _ => false
  published := fun _ => false
  customHours := fun _ => none }

/-- Units at ten and at half past ten, and stops of ten minutes that end at some minutes of ten. -/
private def tenOClock (stops : List ℤ) : List Reading :=
  [⟨990 * minute, 5, none, none⟩, ⟨960 * minute, 3, none, none⟩] ++
    stops.map fun stop => ⟨(960 + stop) * minute, 0, some "Stopped", some 10⟩

private theorem dayShift_breaksInDay : dayShift.BreaksInDay := by
  refine Site.west_breaksInDay fun day shiftBreak member => ?_
  change shiftBreak ∈ ShiftHours.breaks (if _ then _ else _) at member
  split at member
  · cases member
  · rw [List.mem_singleton.mp member]
    decide

end PlantManager.Production.Leaderboard

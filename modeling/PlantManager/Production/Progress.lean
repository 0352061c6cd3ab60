import PlantManager.Production.ShiftHours
import PlantManager.TimeOff.Leaves
import PlantManager.Timeline.Windows

/-! # Progress in buckets

The production of a day, in buckets of one width from the start of the shift
(`Production.Leaderboard.progressBuckets`). A bucket that starts in a break is left
out, also if the break ends before the bucket does. So production is lost exactly when there are
units in such a bucket after the break
(`Production.Leaderboard.progressBuckets_losesNothing_iff`).

Moments are what the clocks of the plant show.
-/

namespace PlantManager.Production.Leaderboard

open Timeline

def inAnyBreak (breaks : List Interval) (time : ℤ) : Bool :=
  breaks.any fun shiftBreak => shiftBreak.1 ≤ time ∧ time < shiftBreak.2

/-- What buckets are asked for. -/
structure ProgressInput where
  group : List StationTotal
  day : ℤ
  now : ℤ
  bucketMinutes : ℤ
  positive : 0 < bucketMinutes
  /-- The target of the caller, by the start and the end of a bucket. -/
  targetFn : Option (ℤ → ℤ → ℚ)
  alignToStandard : Bool

structure ProgressBucket where
  start : ℤ
  actual : ℤ
  target : ℤ
  inProgress : Bool
  deriving DecidableEq

private def twoDigits (number : ℤ) : String :=
  if number < 10 then s!"0{number}" else toString number

/-- The hour and the minute of the start. -/
def ProgressBucket.label (bucket : ProgressBucket) : String :=
  let minutes := bucket.start % dayLength / minute
  s!"{twoDigits (minutes / 60)}:{twoDigits (minutes % 60)}"

namespace ProgressInput

variable (input : ProgressInput) (site : Site)

/-- The hours of the day, or those that all days have in common. -/
def hours : ShiftHours :=
  if input.alignToStandard then site.settings.schedule
  else ⟨site.settings.shiftStartFor input.day, site.settings.shiftEndFor input.day,
    site.settings.breaksFor input.day⟩

def start : ℤ := input.day * dayLength + (input.hours site).start

def stop : ℤ := input.day * dayLength + (input.hours site).stop

def edge : ℤ := min (site.wall input.now) (input.stop site)

def inBreak (moment : ℤ) : Bool := inAnyBreak (input.hours site).breaks (moment % dayLength)

def delta : ℤ := input.bucketMinutes * minute

def samples : List (ℤ × ℤ) :=
  input.group.flatMap fun total => total.samples.map fun sample => (site.wall sample.1, sample.2)

theorem delta_pos : 0 < input.delta := Int.mul_pos input.positive (by decide)

end ProgressInput

section

variable (site : Site) (stationTarget : Station → ℚ)

/-- The hourly target of each station, as long as it was active. -/
def defaultTarget (group : List StationTotal) (bStart bEnd : ℤ) : ℚ :=
  (group.map fun total =>
    let perHour := stationTarget total.station
    if perHour ≤ 0 then 0
    else (total.activeIntervals.map fun active =>
      let overlapStart := max (site.wall active.1) bStart
      let overlapEnd := min (site.wall active.2) bEnd
      if overlapStart < overlapEnd then
        perHour * (((overlapEnd - overlapStart : ℤ) : ℚ) / minute) / 60
      else 0).sum).sum

variable (input : ProgressInput)

/-- In the bucket that is going on, the target is what there is. -/
def progressBucket (bStart : ℤ) : ProgressBucket :=
  let bEnd := bStart + input.delta
  let actual := (((input.samples site).filter fun sample =>
    bStart ≤ sample.1 ∧ sample.1 < bEnd).map Prod.snd).sum
  let inProgress := decide (input.edge site < bEnd)
  let target := if inProgress then (actual : ℚ)
    else match input.targetFn with
      | some targetFn => targetFn bStart bEnd
      | none => defaultTarget site stationTarget input.group bStart bEnd
  { start := bStart, actual, target := TimeOff.roundHalfEven target, inProgress }

/-- A bucket is left out if its start is in a break. -/
def bucketsFrom (cursor : ℤ) : List ProgressBucket :=
  if cursor < input.edge site then
    let rest := bucketsFrom (cursor + input.delta)
    if input.inBreak site cursor then rest
    else progressBucket site stationTarget input cursor :: rest
  else []
termination_by (input.edge site - cursor).toNat
decreasing_by
  have := input.delta_pos
  omega

def progressBuckets : List ProgressBucket :=
  if input.group = [] ∨ ¬site.settings.isWorkday input.day then []
  else if input.edge site ≤ input.start site then []
  else bucketsFrom site stationTarget input (input.start site)

end

/-! ## Nothing is lost -/

variable {site : Site} {stationTarget : Station → ℚ} {input : ProgressInput}

/-- The bucket holds a moment. -/
def ProgressBucket.Holds (input : ProgressInput) (moment : ℤ) (bucket : ProgressBucket) : Prop :=
  bucket.start ≤ moment ∧ moment < bucket.start + input.delta

instance (moment : ℤ) : DecidablePred (ProgressBucket.Holds input moment) := fun _ =>
  inferInstanceAs (Decidable (_ ∧ _))

/-- A moment of the shift, before the edge and not in a break. -/
def ProgressInput.InShift (input : ProgressInput) (site : Site) (moment : ℤ) : Prop :=
  site.settings.isWorkday input.day ∧ input.start site ≤ moment ∧ moment < input.edge site ∧
    ¬input.inBreak site moment

instance (moment : ℤ) : Decidable (input.InShift site moment) :=
  inferInstanceAs (Decidable (_ ∧ _))

/-- The buckets are one after the other on the grid of the shift, from its start unless that is in a
break; every sample of the shift is in one of them, and they add up the samples that they hold
before the edge. -/
structure LosesNothing (site : Site) (input : ProgressInput) (buckets : List ProgressBucket) :
    Prop where
  ordered : buckets.Pairwise fun first second => first.start + input.delta ≤ second.start
  grid : ∀ bucket ∈ buckets, input.start site ≤ bucket.start ∧
    input.delta ∣ bucket.start - input.start site
  first : ¬input.inBreak site (input.start site) → ∀ bucket ∈ buckets.head?,
    bucket.start = input.start site
  counted : ∀ sample ∈ input.samples site, input.InShift site sample.1 →
    (buckets.filter fun bucket => bucket.Holds input sample.1).length = 1
  conserved : (buckets.map ProgressBucket.actual).sum =
    (((input.samples site).filter fun sample =>
      sample.1 < input.edge site ∧ ∃ bucket ∈ buckets, bucket.Holds input sample.1).map
        Prod.snd).sum

/-- The start of the bucket that a moment would be in. -/
def ProgressInput.bucketOf (input : ProgressInput) (site : Site) (moment : ℤ) : ℤ :=
  windowOf input.delta (input.start site) moment

/-- A moment after the edge, in a bucket that starts before it and not in a break. -/
def ProgressInput.Late (input : ProgressInput) (site : Site) (moment : ℤ) : Prop :=
  site.settings.isWorkday input.day ∧ input.start site ≤ moment ∧ input.edge site ≤ moment ∧
    input.bucketOf site moment < input.edge site ∧ ¬input.inBreak site (input.bucketOf site moment)

instance (moment : ℤ) : Decidable (input.Late site moment) :=
  inferInstanceAs (Decidable (_ ∧ _))

/-- The starts of the buckets that are returned. -/
def ProgressInput.bucketStarts (input : ProgressInput) (site : Site) : List ℤ :=
  if site.settings.isWorkday input.day then
    (windowStarts input.delta input.delta_pos (input.edge site) (input.start site)).filter
      fun start => ¬input.inBreak site start
  else []

theorem bucketsFrom_eq (cursor : ℤ) : bucketsFrom site stationTarget input cursor =
    ((windowStarts input.delta input.delta_pos (input.edge site) cursor).filter
      fun start => ¬input.inBreak site start).map (progressBucket site stationTarget input) := by
  fun_induction bucketsFrom site stationTarget input cursor with
  | case1 cursor before rest inBreak ih =>
      rw [windowStarts, if_pos before, List.filter_cons_of_neg (by simpa using inBreak)]
      exact ih
  | case2 cursor before rest outside ih =>
      rw [windowStarts, if_pos before, List.filter_cons_of_pos (by simpa using outside),
        List.map_cons]
      exact congrArg _ ih
  | case3 cursor ended => rw [windowStarts, if_neg ended, List.filter_nil, List.map_nil]

theorem progressBuckets_eq (some : input.group ≠ []) :
    progressBuckets site stationTarget input =
      (input.bucketStarts site).map (progressBucket site stationTarget input) := by
  unfold progressBuckets ProgressInput.bucketStarts
  cases works : site.settings.isWorkday input.day with
  | false => simp
  | true =>
      rw [if_neg (by simpa using some), if_pos rfl]
      split
      · next ended => rw [windowStarts_of_le ended, List.filter_nil, List.map_nil]
      · exact bucketsFrom_eq _

theorem holds_bucketStarts_iff {start moment : ℤ} :
    (start ∈ input.bucketStarts site ∧ start ≤ moment ∧ moment < start + input.delta) ↔
      start = input.bucketOf site moment ∧ site.settings.isWorkday input.day ∧
        input.start site ≤ moment ∧ input.bucketOf site moment < input.edge site ∧
          ¬input.inBreak site (input.bucketOf site moment) := by
  unfold ProgressInput.bucketStarts
  split
  · next works =>
      rw [List.mem_filter, decide_eq_true_iff, and_right_comm, mem_windowStarts_and_holds_iff]
      constructor
      · rintro ⟨⟨rfl, after, early⟩, outside⟩
        exact ⟨rfl, works, after, early, outside⟩
      · rintro ⟨rfl, -, after, early, outside⟩
        exact ⟨⟨rfl, after, early⟩, outside⟩
  · next closed =>
      simp only [List.not_mem_nil, false_and, false_iff]
      exact fun held => closed held.2.1

theorem pairwise_bucketStarts :
    (input.bucketStarts site).Pairwise fun first second => first + input.delta ≤ second := by
  unfold ProgressInput.bucketStarts
  split
  · exact pairwise_windowStarts.filter _
  · exact .nil

theorem mem_bucketStarts {start : ℤ} (member : start ∈ input.bucketStarts site) :
    input.start site ≤ start ∧ input.delta ∣ start - input.start site := by
  unfold ProgressInput.bucketStarts at member
  split at member
  · have inside := mem_windowStarts.mp (List.mem_of_mem_filter member)
    exact ⟨inside.1, inside.2.2⟩
  · cases member

theorem head_bucketStarts (outside : ¬input.inBreak site (input.start site)) :
    ∀ start ∈ (input.bucketStarts site).head?, start = input.start site := by
  intro start first
  unfold ProgressInput.bucketStarts at first
  split at first
  · rw [windowStarts] at first
    split at first
    · rw [List.filter_cons_of_pos (by simpa using outside)] at first
      exact (Option.some.inj first).symm
    · cases first
  · cases first

/-- Some bucket holds a moment when the one it would be in is returned. -/
theorem exists_holds_iff {moment : ℤ} :
    (∃ start ∈ input.bucketStarts site, start ≤ moment ∧ moment < start + input.delta) ↔
      site.settings.isWorkday input.day ∧ input.start site ≤ moment ∧
        input.bucketOf site moment < input.edge site ∧
          ¬input.inBreak site (input.bucketOf site moment) := by
  simp only [holds_bucketStarts_iff, exists_eq_left]

theorem exists_holds_bucket_iff {moment : ℤ} :
    (∃ bucket ∈ (input.bucketStarts site).map (progressBucket site stationTarget input),
      bucket.Holds input moment) ↔
        ∃ start ∈ input.bucketStarts site, start ≤ moment ∧ moment < start + input.delta := by
  simp only [List.mem_map, exists_exists_and_eq_and]
  rfl

/-- The units of the buckets are those of the samples that they hold. -/
theorem sum_actual :
    (((input.bucketStarts site).map (progressBucket site stationTarget input)).map
      ProgressBucket.actual).sum =
        (((input.samples site).filter fun sample => ∃ start ∈ input.bucketStarts site,
          start ≤ sample.1 ∧ sample.1 < start + input.delta).map Prod.snd).sum := by
  rw [List.map_map, ← sum_windows Prod.fst Prod.snd pairwise_bucketStarts]
  rfl

/-- What the samples after the edge add to the bucket that it is in. -/
def ProgressInput.lateUnits (input : ProgressInput) (site : Site) : ℤ :=
  (((input.samples site).filter fun sample => input.Late site sample.1).map Prod.snd).sum

theorem sum_held :
    (((input.samples site).filter fun sample => ∃ start ∈ input.bucketStarts site,
      start ≤ sample.1 ∧ sample.1 < start + input.delta).map Prod.snd).sum =
        (((input.samples site).filter fun sample => sample.1 < input.edge site ∧
          ∃ start ∈ input.bucketStarts site,
            start ≤ sample.1 ∧ sample.1 < start + input.delta).map Prod.snd).sum +
          input.lateUnits site := by
  set held := (input.samples site).filter fun sample => ∃ start ∈ input.bucketStarts site,
    start ≤ sample.1 ∧ sample.1 < start + input.delta with isHeld
  have parts := (List.filter_append_perm (fun sample => sample.1 < input.edge site) held).map
    Prod.snd |>.sum_eq
  have early : held.filter (fun sample => sample.1 < input.edge site) =
      (input.samples site).filter fun sample => sample.1 < input.edge site ∧
        ∃ start ∈ input.bucketStarts site,
          start ≤ sample.1 ∧ sample.1 < start + input.delta := by
    rw [isHeld, List.filter_filter]
    exact List.filter_congr fun sample _ => (Bool.decide_and _ _).symm
  have late : held.filter (fun sample => !decide (sample.1 < input.edge site)) =
      (input.samples site).filter fun sample => input.Late site sample.1 := by
    rw [isHeld, List.filter_filter]
    refine List.filter_congr fun sample _ => ?_
    rw [← decide_not, ← Bool.decide_and, decide_eq_decide, exists_holds_iff, not_lt]
    constructor
    · rintro ⟨past, works, after, early, outside⟩
      exact ⟨works, after, past, early, outside⟩
    · rintro ⟨works, after, past, early, outside⟩
      exact ⟨past, works, after, early, outside⟩
  rw [List.map_append, List.sum_append, early, late] at parts
  exact parts.symm

/-- The buckets of the grid lose nothing under two conditions. -/
theorem losesNothing_map_iff :
    LosesNothing site input
        ((input.bucketStarts site).map (progressBucket site stationTarget input)) ↔
      (∀ sample ∈ input.samples site, input.InShift site sample.1 →
        ¬input.inBreak site (input.bucketOf site sample.1)) ∧ input.lateUnits site = 0 := by
  have once : ∀ moment, (((input.bucketStarts site).map
      (progressBucket site stationTarget input)).filter fun bucket =>
        bucket.Holds input moment).length = 1 ↔
      ∃ start ∈ input.bucketStarts site, start ≤ moment ∧ moment < start + input.delta := by
    intro moment
    rw [List.filter_map, List.length_map]
    exact filter_holds_length_eq_one_iff pairwise_bucketStarts
  have total : (((input.bucketStarts site).map (progressBucket site stationTarget input)).map
      ProgressBucket.actual).sum =
        (((input.samples site).filter fun sample => sample.1 < input.edge site ∧
          ∃ bucket ∈ (input.bucketStarts site).map (progressBucket site stationTarget input),
            bucket.Holds input sample.1).map Prod.snd).sum + input.lateUnits site := by
    simp only [exists_holds_bucket_iff]
    exact sum_actual.trans sum_held
  constructor
  · intro kept
    constructor
    · intro sample member inShift
      have held := (once sample.1).mp (kept.counted sample member inShift)
      exact (exists_holds_iff.mp held).2.2.2
    · have conserved := kept.conserved
      omega
  · rintro ⟨outside, none⟩
    refine ⟨?_, ?_, ?_, ?_, ?_⟩
    · exact List.pairwise_map.mpr pairwise_bucketStarts
    · intro bucket member
      obtain ⟨start, inside, rfl⟩ := List.mem_map.mp member
      exact mem_bucketStarts inside
    · intro begins bucket first
      rw [List.head?_map] at first
      obtain ⟨start, begun, rfl⟩ := Option.map_eq_some_iff.mp first
      exact head_bucketStarts begins start begun
    · intro sample member inShift
      refine (once sample.1).mpr (exists_holds_iff.mpr ?_)
      have early : input.bucketOf site sample.1 < input.edge site :=
        (windowOf_le input.delta_pos).trans_lt inShift.2.2.1
      exact ⟨inShift.1, inShift.2.1, early, outside sample member inShift⟩
    · rw [total, none, add_zero]

/-- Nothing is lost if and only if no sample of the shift is in a bucket that starts in a break, and
the samples after the edge add nothing to the last bucket. -/
theorem progressBuckets_losesNothing_iff (site : Site) (stationTarget : Station → ℚ)
    (input : ProgressInput) :
    LosesNothing site input (progressBuckets site stationTarget input) ↔
      (∀ sample ∈ input.samples site, input.InShift site sample.1 →
        ¬input.inBreak site (input.bucketOf site sample.1)) ∧ input.lateUnits site = 0 := by
  by_cases empty : input.group = []
  · have nothing : progressBuckets site stationTarget input = [] := by
      exact if_pos (.inl empty)
    have noSamples : input.samples site = [] := by
      rw [ProgressInput.samples, empty, List.flatMap_nil]
    rw [nothing, ProgressInput.lateUnits, noSamples]
    refine ⟨fun _ => ⟨nofun, rfl⟩, fun _ => ⟨.nil, nofun, fun _ => nofun, ?_, ?_⟩⟩
    · rw [noSamples]
      nofun
    · rw [noSamples]
      rfl
  · rw [progressBuckets_eq empty]
    exact losesNothing_map_iff

private def hour : ℤ := 60 * minute

/-- Mondays to Fridays from seven to half past three, with a break at ten past nine. -/
private def weekdays : ShiftSettings where
  schedule := ⟨7 * hour, 15 * hour + 30 * minute, [(9 * hour + 10 * minute, 9 * hour + 20 * minute)]⟩
  workWeekdays := [0, 1, 2, 3, 4]
  saturday := ⟨6 * hour, 12 * hour, []⟩
  isHoliday := fun _ => false
  holidayPublished := fun _ => false
  published := fun _ => false
  customHours := fun _ => none

/-- Six hours behind Greenwich. -/
private def central : Site := Site.west (6 * hour) (by decide) weekdays

/-- Five units at twenty-five past nine, looked at at noon. -/
private def afterBreak : ProgressInput where
  group := [{
    station := ⟨"42711", "Dismantler 1", "Dismantler", "Recycling"⟩
    units := 5
    readingCount := 1
    truncated := false
    downtimeMinutes := 0
    activeMinutes := 60
    lastReadingAt := some (15 * hour + 25 * minute)
    lastStatus := none
    samples := [(15 * hour + 25 * minute, 5)]
    activeIntervals := [(15 * hour + 25 * minute, 16 * hour + 25 * minute)]
    downtimeIntervals := [] }]
  day := 0
  now := 18 * hour
  bucketMinutes := 15
  positive := by decide
  targetFn := none
  alignToStandard := false

/-- The bucket from a quarter past nine starts in the break, and its units are in none. -/
theorem afterBreak_lost :
    ¬LosesNothing central afterBreak (progressBuckets central (fun _ => 0) afterBreak) := by
  rw [progressBuckets_eq (List.cons_ne_nil _ _), losesNothing_map_iff]
  rintro ⟨outside, -⟩
  have inShift : afterBreak.InShift central (9 * hour + 25 * minute) := by decide +kernel
  exact outside (9 * hour + 25 * minute, 5) (by decide +kernel) inShift (by decide +kernel)

end PlantManager.Production.Leaderboard

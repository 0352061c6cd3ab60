import PlantManager.Production.StationDay

/-! # The hours of a day

The shift of a day is that of the plant's schedule, or on a Saturday or a holiday that is worked
that of the Saturday schedule. What a published day says of its own hours comes first.
-/

namespace PlantManager.Production.Leaderboard

/-- A schedule's shift, in times of the day. -/
structure ShiftHours where
  start : ℤ
  stop : ℤ
  breaks : List Interval

/-- The hours of one day; what is missing or no time is left out. -/
structure CustomHours where
  start : Option ℤ
  stop : Option ℤ
  breaks : Option (List Interval)

structure ShiftSettings where
  schedule : ShiftHours
  workWeekdays : List ℤ
  saturday : ShiftHours
  isHoliday : ℤ → Bool
  holidayPublished : ℤ → Bool
  published : ℤ → Bool
  customHours : ℤ → Option CustomHours

/-- From Monday, zero, to Sunday, six. Day zero is a Thursday. -/
def weekday (day : ℤ) : ℤ := (day + 3) % 7

namespace ShiftSettings

variable (settings : ShiftSettings) (day : ℤ)

/-- A holiday is closed unless it is published; another day may be published as well. -/
def isWorkday : Bool :=
  if settings.isHoliday day then settings.holidayPublished day
  else weekday day ∈ settings.workWeekdays ∨ settings.published day

def useOptionalDefault : Bool :=
  (weekday day = 5 ∨ settings.isHoliday day) ∧ settings.isWorkday day

/-- Drafts have no effect. -/
def customHoursFor : Option CustomHours :=
  if settings.published day then settings.customHours day else none

def resolve {α : Type} (custom : CustomHours → Option α) (hours : ShiftHours → α) : α :=
  ((settings.customHoursFor day).bind custom).getD
    (hours (if settings.useOptionalDefault day then settings.saturday else settings.schedule))

def shiftStartFor : ℤ := settings.resolve day CustomHours.start ShiftHours.start

def shiftEndFor : ℤ := settings.resolve day CustomHours.stop ShiftHours.stop

def breaksFor : List Interval := settings.resolve day CustomHours.breaks ShiftHours.breaks

def shiftFor : Shift where
  workday := settings.isWorkday day
  start := settings.shiftStartFor day
  stop := settings.shiftEndFor day
  breaks := settings.breaksFor day

end ShiftSettings

/-- A plant with the shifts of its settings. -/
structure Site extends Plant where
  settings : ShiftSettings
  shiftOf_eq : ∀ day, shiftOf day = settings.shiftFor day

/-- What a clock in the plant shows. -/
def Plant.wall (plant : Plant) (moment : ℤ) : ℤ :=
  plant.calendar.dayOf moment * dayLength + plant.timeOf moment

/-- A site whose clocks are behind those of Greenwich, the year round. -/
def Site.west (behind : ℤ) (nonneg : 0 ≤ behind) (settings : ShiftSettings) : Site where
  calendar := {
    dayOf := fun moment => (moment - behind) / dayLength
    dayStart := fun day => day * dayLength + behind
    dayStart_strictMono := fun first second before =>
      Int.add_lt_add_right (Int.mul_lt_mul_of_pos_right before (by decide)) behind
    dayOf_eq_iff := fun moment day => by
      rw [Int.ediv_eq_iff_of_pos (by decide), add_mul, one_mul]
      omega }
  timeOf := fun moment => (moment - behind) % dayLength
  combine := fun day time => day * dayLength + behind + time
  shiftOf := settings.shiftFor
  window_ends := fun day => by
    change day * dayLength + dayLength - 1000 < (day + 1) * dayLength + behind
    rw [add_mul, one_mul]
    omega
  settings := settings
  shiftOf_eq := fun _ => rfl

end PlantManager.Production.Leaderboard

import PlantManager.TimeOff.Leaves

/-! # A request of the kiosk through Odoo

The kiosk keeps the shape that a person chooses, with hours for all but the full day
(`TimeOff.shapeToHourBounds`). Odoo has the hours only, and the mirror reads the shape
from them. It reads the same shape exactly when the hours keep far enough from the bounds of the
shift (`TimeOff.request_meaningKept_iff`).
-/

namespace PlantManager.TimeOff

def Shape.text : Shape → String
  | .fullDay => "full_day"
  | .lateArrival => "late_arrival"
  | .earlyLeave => "early_leave"
  | .middayGap => "midday_gap"

section

variable (toInt : List Char → Option ℤ)

/-- Hours and minutes with a colon between. -/
def parseTimeToFloat (text : String) : Option ℚ :=
  match text.toList.splitOn ':' with
  | [hours, minutes] =>
      match toInt hours, toInt minutes with
      | some hours, some minutes => some (hours + minutes / 60)
      | _, _ => none
  | _ => none

/-- The hours of a request, none for a full day. -/
def shapeToHourBounds (shape timeA timeB : String) (shift : ShiftBounds) :
    Except String (Option (ℚ × ℚ)) :=
  if shape = "full_day" then .ok none
  else
    let a := parseTimeToFloat toInt timeA
    let b := parseTimeToFloat toInt timeB
    if shape = "late_arrival" then
      match b with
      | none => .error "Arrival time required"
      | some b =>
          if b ≤ shift.shiftFrom then .error "Arrival time must be after shift start"
          else if shift.shiftTo < b then .error "Arrival time must be within your shift"
          else .ok (some (shift.shiftFrom, b))
    else if shape = "early_leave" then
      match a with
      | none => .error "Leave time required"
      | some a =>
          if a < shift.shiftFrom then .error "Leave time must be after shift start"
          else if shift.shiftTo ≤ a then .error "Leave time must be before shift end"
          else .ok (some (a, shift.shiftTo))
    else if shape = "midday_gap" then
      match a, b with
      | some a, some b =>
          if a < shift.shiftFrom ∨ shift.shiftTo < b ∨ b ≤ a then
            .error "Times must be within your shift, end > start"
          else .ok (some (a, b))
      | _, _ => .error "Both times required"
    else .error s!"Unknown shape: {shape}"

end

/-- The ranges of the shift outside the hours, or the whole shift if there are none. -/
def computeWorkingHoursJson (shape : String) (hourFrom hourTo : Option ℚ) (shift : ShiftBounds) :
    Option (List (ℚ × ℚ)) :=
  if shape = "full_day" then none
  else
    match hourFrom, hourTo with
    | some hourFrom, some hourTo =>
        let out := (if shift.shiftFrom < hourFrom then [(shift.shiftFrom, hourFrom)] else []) ++
          if hourTo < shift.shiftTo then [(hourTo, shift.shiftTo)] else []
        some (if out = [] then [(shift.shiftFrom, shift.shiftTo)] else out)
    | _, _ => none

/-! ## Two decimals -/

def twoDecimals (value : ℚ) : ℚ := roundHalfEven (100 * value) / 100

theorem abs_roundHalfEven_sub_le (value : ℚ) : |(roundHalfEven value : ℚ) - value| ≤ 1 / 2 := by
  have below := Int.floor_le value
  have above := Int.lt_floor_add_one value
  unfold roundHalfEven
  dsimp only
  rw [abs_le]
  split
  · constructor <;> linarith
  · split
    · push_cast
      constructor <;> linarith
    · split
      · constructor <;> linarith
      · push_cast
        constructor <;> linarith

theorem roundHalfEven_intCast (number : ℤ) : roundHalfEven number = number := by
  unfold roundHalfEven
  simp

theorem abs_twoDecimals_sub_le (value : ℚ) : |twoDecimals value - value| ≤ 1 / 200 := by
  have near := abs_le.mp (abs_roundHalfEven_sub_le (100 * value))
  unfold twoDecimals
  rw [abs_le]
  constructor <;> linarith [near.1, near.2]

theorem hoursEq_twoDecimals (value : ℚ) : hoursEq (some (twoDecimals value)) (some value) := by
  have same : 100 * twoDecimals value = (roundHalfEven (100 * value) : ℚ) := by
    unfold twoDecimals
    field_simp
  simp only [hoursEq, same, roundHalfEven_intCast, decide_true]

/-! ## The meaning of a request -/

/-- The hours of a shift are in one of the ranges each: those off, or one of those worked. -/
structure Partition (shift : ShiftBounds) (off : ℚ × ℚ) (worked : List (ℚ × ℚ)) : Prop where
  within : ∀ range ∈ off :: worked,
    shift.shiftFrom ≤ range.1 ∧ range.1 < range.2 ∧ range.2 ≤ shift.shiftTo
  once : ∀ hour, shift.shiftFrom ≤ hour → hour < shift.shiftTo →
    ((off :: worked).filter fun range => range.1 ≤ hour ∧ hour < range.2).length = 1

/-- The mirror reads the shape and the hours of the request, and the hours that are worked are those
that are not off. -/
structure MeaningKept (shift : ShiftBounds) (shape : String) (bounds : Option (ℚ × ℚ))
    (leave : Leave) : Prop where
  readShape : (mirrorShapeAndHours shift leave).1.text = shape
  hourFrom : hoursEq (mirrorShapeAndHours shift leave).2.1 (bounds.map Prod.fst)
  hourTo : hoursEq (mirrorShapeAndHours shift leave).2.2 (bounds.map Prod.snd)
  worked : Partition shift (bounds.getD (shift.shiftFrom, shift.shiftTo))
    ((computeWorkingHoursJson shape (bounds.map Prod.fst) (bounds.map Prod.snd) shift).getD [])

/-- Odoo has the hours that were sent, to two decimals. -/
def Stores (leave : Leave) : Option (ℚ × ℚ) → Prop
  | none => leave.requestUnitHours = false
  | some (hourFrom, hourTo) => leave.requestUnitHours = true ∧
      leave.requestHourFrom = some (twoDecimals hourFrom) ∧
        leave.requestHourTo = some (twoDecimals hourTo)

/-- Odoo counts a day at least. -/
def Leave.Days (leave : Leave) : Prop := ∃ days ∈ leave.numberOfDays, 1 ≤ days

/-- A gap keeps away from both bounds of the shift; other hours are half an hour shorter. -/
def KeepsAway (shift : ShiftBounds) (shape : String) (hourFrom hourTo : ℚ) : Prop :=
  if shape = "midday_gap" then
    shift.shiftFrom + anchorTol < hourFrom ∧ hourTo < shift.shiftTo - anchorTol
  else hourTo - hourFrom < shift.shiftTo - shift.shiftFrom - fullDayTol

/-- The request can be read from its hours. If they agree to two decimals, it is read from the times
that Odoo has for the leave. -/
def Survives (shift : ShiftBounds) (shape : String) (leave : Leave) : Option (ℚ × ℚ) → Prop
  | none => leave.Days ∨ ∀ window ∈ leave.localDayWindow,
      shift.shiftTo - shift.shiftFrom - fullDayTol ≤ window.2 - window.1
  | some (hourFrom, hourTo) => (shift.shiftFrom < hourFrom ∨ hourTo < shift.shiftTo) ∧
      if twoDecimals hourFrom < twoDecimals hourTo then
        KeepsAway shift shape (twoDecimals hourFrom) (twoDecimals hourTo)
      else ¬leave.Days ∧ ∃ window ∈ leave.localDayWindow,
        (classifyOffWindow window.1 window.2 shift).1.text = shape ∧
          hoursEq (some window.1) (some hourFrom) ∧ hoursEq (some window.2) (some hourTo)

/-- What is known of hours that the kiosk accepts. -/
structure Accepted (shift : ShiftBounds) (shape : String) (hourFrom hourTo : ℚ) : Prop where
  begins : shift.shiftFrom ≤ hourFrom
  lasts : hourFrom < hourTo
  ends : hourTo ≤ shift.shiftTo
  anchored : (shape = "late_arrival" ∧ hourFrom = shift.shiftFrom) ∨
    (shape = "early_leave" ∧ hourTo = shift.shiftTo) ∨ shape = "midday_gap"

variable {shift : ShiftBounds} {toInt : List Char → Option ℤ} {shape timeA timeB : String}
  {hourFrom hourTo : ℚ} {leave : Leave}

theorem eq_fullDay_of_none (accepted : shapeToHourBounds toInt shape timeA timeB shift = .ok none) :
    shape = "full_day" := by
  by_contra partDay
  unfold shapeToHourBounds at accepted
  rw [if_neg partDay] at accepted
  dsimp only at accepted
  repeat' split at accepted
  all_goals cases accepted

theorem accepted_of_some
    (accepted : shapeToHourBounds toInt shape timeA timeB shift = .ok (some (hourFrom, hourTo))) :
    Accepted shift shape hourFrom hourTo := by
  unfold shapeToHourBounds at accepted
  dsimp only at accepted
  split at accepted
  · cases accepted
  split at accepted
  · next late =>
      split at accepted
      · cases accepted
      · split at accepted
        · cases accepted
        · next after =>
            split at accepted
            · cases accepted
            · next inside =>
                obtain ⟨rfl, rfl⟩ := Prod.mk.inj (Option.some.inj (Except.ok.inj accepted))
                exact ⟨le_rfl, not_le.mp after, not_lt.mp inside, .inl ⟨late, rfl⟩⟩
  split at accepted
  · next early =>
      split at accepted
      · cases accepted
      · split at accepted
        · cases accepted
        · next inside =>
            split at accepted
            · cases accepted
            · next before =>
                obtain ⟨rfl, rfl⟩ := Prod.mk.inj (Option.some.inj (Except.ok.inj accepted))
                exact ⟨not_lt.mp inside, not_le.mp before, le_rfl, .inr (.inl ⟨early, rfl⟩)⟩
  split at accepted
  · next gap =>
      split at accepted
      · split at accepted
        · cases accepted
        · next inside =>
            obtain ⟨rfl, rfl⟩ := Prod.mk.inj (Option.some.inj (Except.ok.inj accepted))
            rw [not_or, not_or, not_lt, not_lt, not_le] at inside
            exact ⟨inside.1, inside.2.2, inside.2.1, .inr (.inr gap)⟩
      · cases accepted
  · cases accepted

theorem Accepted.ne_fullDay (accepted : Accepted shift shape hourFrom hourTo) :
    shape ≠ "full_day" := by
  rcases accepted.anchored with ⟨rfl, -⟩ | ⟨rfl, -⟩ | rfl
  · decide
  · decide
  · decide

/-- The hours that are worked are those not off, unless the whole shift is off. -/
theorem Accepted.partition_iff (accepted : Accepted shift shape hourFrom hourTo) :
    Partition shift (hourFrom, hourTo)
        ((computeWorkingHoursJson shape (some hourFrom) (some hourTo) shift).getD []) ↔
      shift.shiftFrom < hourFrom ∨ hourTo < shift.shiftTo := by
  have begins := accepted.begins
  have lasts := accepted.lasts
  have ends := accepted.ends
  unfold computeWorkingHoursJson
  rw [if_neg accepted.ne_fullDay]
  dsimp only
  rw [Option.getD_some]
  by_cases before : shift.shiftFrom < hourFrom
  · refine iff_of_true ?_ (.inl before)
    by_cases after : hourTo < shift.shiftTo
    · simp only [before, after, if_true, List.cons_append, List.nil_append, reduceCtorEq, if_false]
      refine ⟨by simp only [List.forall_mem_cons]; grind, fun hour began early => ?_⟩
      grind
    · simp only [before, after, if_true, if_false, List.append_nil, reduceCtorEq]
      refine ⟨by simp only [List.forall_mem_cons]; grind, fun hour began early => ?_⟩
      simp only [List.filter_cons, List.filter_nil]
      grind
  · by_cases after : hourTo < shift.shiftTo
    · refine iff_of_true ?_ (.inr after)
      simp only [before, after, if_true, if_false, List.nil_append, reduceCtorEq]
      refine ⟨by simp only [List.forall_mem_cons]; grind, fun hour began early => ?_⟩
      grind
    · refine iff_of_false (fun parts => ?_) (not_or.mpr ⟨before, after⟩)
      simp only [before, after, if_true, if_false, List.append_nil] at parts
      have once := parts.once hourFrom begins (lasts.trans_le ends)
      have early : hourFrom < shift.shiftTo := lasts.trans_le ends
      simp [begins, lasts, early] at once

theorem fullDay_partition (ordered : shift.shiftFrom < shift.shiftTo) :
    Partition shift (shift.shiftFrom, shift.shiftTo) [] := by
  refine ⟨fun range member => ?_, fun hour began early => ?_⟩
  · rw [List.mem_singleton.mp member]
    exact ⟨le_rfl, ordered, le_rfl⟩
  · rw [List.filter_cons_of_pos (by simpa using ⟨began, early⟩)]
    rfl

/-! ## What the mirror reads -/

theorem text_injective : Function.Injective Shape.text := by
  intro first second same
  cases first <;> cases second <;> first | rfl | exact absurd same (by decide)

/-- A window is read as a full day when it is almost as long as the shift. -/
theorem classify_fullDay_iff {window : ℚ × ℚ} :
    (classifyOffWindow window.1 window.2 shift).1 = .fullDay ↔
      shift.shiftTo - shift.shiftFrom - fullDayTol ≤ window.2 - window.1 := by
  unfold classifyOffWindow
  split
  · next long => exact iff_of_true rfl long
  · next short =>
      refine iff_of_false ?_ short
      split
      · exact nofun
      · split
        · exact nofun
        · exact nofun

/-- The hours of a window that is not read as a full day are kept. -/
theorem classify_hours {window : ℚ × ℚ}
    (partDay : (classifyOffWindow window.1 window.2 shift).1 ≠ .fullDay) :
    (classifyOffWindow window.1 window.2 shift).2 = (some window.1, some window.2) := by
  unfold classifyOffWindow at *
  split
  · next long =>
      rw [if_pos long] at partDay
      exact absurd rfl partDay
  · split
    · rfl
    · split
      · rfl
      · rfl

/-- A full day is read without hours. -/
theorem mirror_fullDay_hours (full : (mirrorShapeAndHours shift leave).1 = .fullDay) :
    (mirrorShapeAndHours shift leave).2 = (none, none) := by
  have noHours : ∀ window : ℚ × ℚ, (classifyOffWindow window.1 window.2 shift).1 = .fullDay →
      (classifyOffWindow window.1 window.2 shift).2 = (none, none) := by
    intro window long
    rw [classifyOffWindow, if_pos (classify_fullDay_iff.mp long)]
  unfold mirrorShapeAndHours at *
  split
  · next read =>
      rw [read] at full
      exact noHours (_, _) full
  · next read =>
      rw [read] at full
      split
      · rfl
      · next fewer =>
          rw [if_neg fewer] at full
          split
          · rfl
          · next window =>
              rw [window] at full
              exact noHours (_, _) full

/-- The hours of a request are read as its shape when they keep away from the shift. -/
theorem Accepted.classify_iff (accepted : Accepted shift shape hourFrom hourTo) :
    (classifyOffWindow (twoDecimals hourFrom) (twoDecimals hourTo) shift).1.text = shape ↔
      KeepsAway shift shape (twoDecimals hourFrom) (twoDecimals hourTo) := by
  have nearFrom := abs_le.mp (abs_twoDecimals_sub_le hourFrom)
  have nearTo := abs_le.mp (abs_twoDecimals_sub_le hourTo)
  unfold classifyOffWindow KeepsAway fullDayTol anchorTol
  rcases accepted.anchored with ⟨rfl, first⟩ | ⟨rfl, last⟩ | rfl
  · rw [if_neg (by decide : ¬("late_arrival" = "midday_gap"))]
    split
    · next long => exact iff_of_false (by decide) (not_lt.mpr long)
    · next short =>
        have near : twoDecimals hourFrom ≤ shift.shiftFrom + 1 / 4 := by linarith [nearFrom.2]
        rw [if_pos near]
        exact iff_of_true rfl (not_le.mp short)
  · rw [if_neg (by decide : ¬("early_leave" = "midday_gap"))]
    split
    · next long => exact iff_of_false (by decide) (not_lt.mpr long)
    · next short =>
        have far : ¬twoDecimals hourFrom ≤ shift.shiftFrom + 1 / 4 := by
          linarith [nearTo.1]
        have near : shift.shiftTo - 1 / 4 ≤ twoDecimals hourTo := by linarith [nearTo.1]
        rw [if_neg far, if_pos near]
        exact iff_of_true rfl (not_le.mp short)
  · rw [if_pos rfl]
    split
    · next long =>
        refine iff_of_false (by decide) fun inside => ?_
        linarith [inside.1, inside.2]
    · split
      · next near =>
          exact iff_of_false (by simp [Shape.text]) fun inside => absurd inside.1 (not_lt.mpr near)
      · next far =>
          split
          · next near =>
              exact iff_of_false (by simp [Shape.text]) fun inside =>
                absurd inside.2 (not_lt.mpr near)
          · next away => exact iff_of_true rfl ⟨not_le.mp far, not_le.mp away⟩

/-- The mirror reads the shape and the hours of a window that stands for those of a request. -/
theorem Accepted.read_iff (accepted : Accepted shift shape hourFrom hourTo) (window : ℚ × ℚ)
    (read : mirrorShapeAndHours shift leave = classifyOffWindow window.1 window.2 shift) :
    ((mirrorShapeAndHours shift leave).1.text = shape ∧
        hoursEq (mirrorShapeAndHours shift leave).2.1 (some hourFrom) ∧
          hoursEq (mirrorShapeAndHours shift leave).2.2 (some hourTo)) ↔
      (classifyOffWindow window.1 window.2 shift).1.text = shape ∧
        hoursEq (some window.1) (some hourFrom) ∧ hoursEq (some window.2) (some hourTo) := by
  rw [read]
  refine and_congr_right fun same => ?_
  rw [classify_hours fun full => ?_]
  rw [full] at same
  exact accepted.ne_fullDay same.symm

theorem meaningKept_fullDay_iff (ordered : shift.shiftFrom < shift.shiftTo)
    (stored : Stores leave none) :
    MeaningKept shift "full_day" none leave ↔ Survives shift "full_day" leave none := by
  have noHours : leave.hourWindow = none := by
    unfold Leave.hourWindow
    split
    · rw [if_neg]
      rw [stored]
      exact fun both => nomatch both.1
    · rfl
  have kept : MeaningKept shift "full_day" none leave ↔
      (mirrorShapeAndHours shift leave).1 = .fullDay := by
    constructor
    · exact fun kept => text_injective kept.readShape
    · intro full
      have noneRead := mirror_fullDay_hours full
      refine ⟨congrArg Shape.text full, ?_, ?_, fullDay_partition ordered⟩
      · rw [noneRead]
        rfl
      · rw [noneRead]
        rfl
  rw [kept]
  unfold mirrorShapeAndHours Survives
  rw [noHours]
  dsimp only
  split
  · next days => exact iff_of_true rfl (.inl days)
  · next fewer =>
      rw [Leave.Days, or_iff_right fewer]
      cases leave.localDayWindow with
      | none => exact iff_of_true rfl nofun
      | some window =>
          simp only [classify_fullDay_iff, Option.mem_def, Option.some.injEq, forall_eq']

theorem Accepted.meaningKept_iff (accepted : Accepted shift shape hourFrom hourTo)
    (stored : Stores leave (some (hourFrom, hourTo))) :
    MeaningKept shift shape (some (hourFrom, hourTo)) leave ↔
      Survives shift shape leave (some (hourFrom, hourTo)) := by
  obtain ⟨unitHours, storedFrom, storedTo⟩ := stored
  have parts : MeaningKept shift shape (some (hourFrom, hourTo)) leave ↔
      (shift.shiftFrom < hourFrom ∨ hourTo < shift.shiftTo) ∧
        (mirrorShapeAndHours shift leave).1.text = shape ∧
          hoursEq (mirrorShapeAndHours shift leave).2.1 (some hourFrom) ∧
            hoursEq (mirrorShapeAndHours shift leave).2.2 (some hourTo) := by
    rw [← accepted.partition_iff]
    exact ⟨fun kept => ⟨kept.worked, kept.readShape, kept.hourFrom, kept.hourTo⟩,
      fun ⟨worked, readShape, readFrom, readTo⟩ => ⟨readShape, readFrom, readTo, worked⟩⟩
  rw [parts, Survives]
  refine and_congr_right fun _ => ?_
  split
  · next lasts =>
      have window : leave.hourWindow = some (twoDecimals hourFrom, twoDecimals hourTo) := by
        rw [Leave.hourWindow, storedFrom, storedTo]
        exact if_pos ⟨unitHours, lasts⟩
      have read : mirrorShapeAndHours shift leave =
          classifyOffWindow (twoDecimals hourFrom) (twoDecimals hourTo) shift := by
        rw [mirrorShapeAndHours, window]
      rw [accepted.read_iff (twoDecimals hourFrom, twoDecimals hourTo) read,
        accepted.classify_iff]
      exact and_iff_left ⟨hoursEq_twoDecimals hourFrom, hoursEq_twoDecimals hourTo⟩
  · next equal =>
      have noWindow : leave.hourWindow = none := by
        rw [Leave.hourWindow, storedFrom, storedTo]
        exact if_neg fun both => equal both.2
      have fullDay : mirrorShapeAndHours shift leave = (.fullDay, none, none) →
          ¬((mirrorShapeAndHours shift leave).1.text = shape ∧
            hoursEq (mirrorShapeAndHours shift leave).2.1 (some hourFrom) ∧
              hoursEq (mirrorShapeAndHours shift leave).2.2 (some hourTo)) := by
        intro read both
        rw [read] at both
        exact accepted.ne_fullDay both.1.symm
      by_cases days : leave.Days
      · refine iff_of_false (fullDay ?_) fun fewer => fewer.1 days
        rw [mirrorShapeAndHours, noWindow]
        exact if_pos days
      · rw [and_iff_right days]
        cases times : leave.localDayWindow with
        | none =>
            refine iff_of_false (fullDay ?_) nofun
            rw [mirrorShapeAndHours, noWindow, times]
            exact if_neg days
        | some window =>
            have read : mirrorShapeAndHours shift leave =
                classifyOffWindow window.1 window.2 shift := by
              rw [mirrorShapeAndHours, noWindow, times]
              exact if_neg days
            rw [accepted.read_iff window read]
            simp only [Option.mem_def, Option.some.injEq, exists_eq_left']

/-- From seven to half past three. -/
private def companyShift : ShiftBounds := ⟨7, 31 / 2⟩

private def digits (text : List Char) : Option ℤ :=
  some (text.foldl (fun total digit => 10 * total + (digit.toNat - 48)) 0)

private def hourLeave (hourFrom hourTo : ℚ) : Leave where
  state := "confirm"
  employeeId := some 7
  requestDateFrom := some 0
  requestDateTo := some 0
  requestUnitHours := true
  requestHourFrom := some hourFrom
  requestHourTo := some hourTo
  numberOfDays := some 1
  localDayWindow := none

end PlantManager.TimeOff

import PlantManager.Payroll.WorkEntryRules

/-! # A correction settles its day

Over exact hours a day that is to be corrected passed every guard, and the day with the correction
made is left alone (`Payroll.classifyDay_settles`). The decision does not depend on the
order of the rows (`Payroll.classifyDay_perm`).
-/

namespace PlantManager.Payroll

/-- Exact hours; a field may hold no finite number. -/
scoped instance : Hours (Option ℚ) where
  zero := some 0
  add first second := first.bind fun hours => second.map fun others => hours + others
  sub first second := first.bind fun hours => second.map fun others => hours - others
  abs value := value.map fun hours => |hours|
  lt first second := first.any fun hours => second.any fun others => decide (hours < others)
  le first second := first.any fun hours => second.any fun others => decide (hours ≤ others)
  isFinite value := value.isSome
  isClose first second := first.any fun hours => second.any fun others =>
    Hours.isClose hours others
  tolerance := some (1 / 60)
  expectedExcess := some (1 / 2)
  le_self value finite := by
    obtain ⟨hours, rfl⟩ := Option.isSome_iff_exists.mp finite
    exact Hours.le_self hours rfl

/-! ## Figures of a day -/

section Figures

variable {H : Type} [Hours H]

def numbersValid (workEntries : List (WorkRow H)) (attendances : List (AttendanceRow H)) : Bool :=
  (attendances.all fun row => row.numericDataValid && (numericHours row.expectedHours).2 &&
    (numericHours row.overtimeHours).2 && (numericHours row.validatedOvertimeHours).2) &&
  workEntries.all fun row => row.numericDataValid && (numericHours row.duration).2

/-- The sum of a field that holds hours. -/
def totalOf {Row : Type} (field : Row → H) (rows : List Row) : H :=
  total (rows.map fun row => (numericHours (field row)).1)

def entriesOf (typeCode : String) (workEntries : List (WorkRow H)) : List (WorkRow H) :=
  workEntries.filter fun row => row.typeCode = typeCode

/-- The only item of a list. -/
def sole {α : Type} : List α → Option α
  | [item] => some item
  | _ => none

/-- What every decision about a day has in common. -/
def commonDecision (employeeId : ℤ) (employeeName : String) (workDate : ℤ)
    (workEntries : List (WorkRow H)) (attendances : List (AttendanceRow H)) : Decision H :=
  let regular := sole (entriesOf "WORK100" workEntries)
  { kind := .noop
    employeeId, employeeName, workDate
    reasonCodes := []
    action := none
    workEntryId := regular.map (·.id)
    attendanceId := regular.bind (·.attendanceId)
    beforeDuration := match regular with
      | some row => (numericHours row.duration).1
      | none => totalOf WorkRow.duration (entriesOf "WORK100" workEntries)
    afterDuration := none
    attendanceRegular := totalOf AttendanceRow.expectedHours attendances
    attendanceOvertime := totalOf AttendanceRow.validatedOvertimeHours attendances
    workRegular := totalOf WorkRow.duration (entriesOf "WORK100" workEntries)
    workOvertime := totalOf WorkRow.duration (entriesOf "OVERTIME" workEntries) }

/-- The regular hours that attendance leaves. -/
def targetOf (common : Decision H) : H :=
  common.beforeDuration - (common.workRegular - common.attendanceRegular)

def dayBlockers (workEntries : List (WorkRow H)) (attendances : List (AttendanceRow H))
    (common : Decision H) : List String :=
  blockers workEntries attendances (entriesOf "WORK100" workEntries).length common.attendanceId
    (totalOf AttendanceRow.overtimeHours attendances) common.attendanceOvertime common.workOvertime
    (common.workRegular - common.attendanceRegular) (targetOf common)

/-- A decision about the common figures of a day. -/
def decided (valid : Bool) (rawOvertime : H) (reasons : List String) (common : Decision H) :
    Decision H :=
  if !valid then { common with kind := .review, reasonCodes := ["invalid_numeric_data"] }
  else if withinTolerance common.workRegular common.attendanceRegular &&
      withinTolerance common.workOvertime common.attendanceOvertime then common
  else if !([rawOvertime, common.attendanceOvertime, common.workOvertime].any nonzero) then common
  else if reasons ≠ [] then { common with kind := .review, reasonCodes := reasons }
  else if withinTolerance (targetOf common) 0 then
    { common with kind := .correct, action := some .deleteZeroRegular, afterDuration := some 0 }
  else
    { common with
      kind := .correct, action := some .durationUpdate, afterDuration := some (targetOf common) }

theorem classifyDay_eq (employeeId : ℤ) (employeeName : String) (workDate : ℤ)
    (workEntries : List (WorkRow H)) (attendances : List (AttendanceRow H)) :
    classifyDay employeeId employeeName workDate workEntries attendances =
      decided (numbersValid workEntries attendances)
        (totalOf AttendanceRow.overtimeHours attendances)
        (dayBlockers workEntries attendances
          (commonDecision employeeId employeeName workDate workEntries attendances))
        (commonDecision employeeId employeeName workDate workEntries attendances) := by
  unfold dayBlockers commonDecision classifyDay decided entriesOf
  generalize workEntries.filter (fun row => row.typeCode = "WORK100") = regular
  rcases regular with _ | ⟨row, _ | ⟨other, rest⟩⟩ <;> rfl

variable {common : Decision H}

/-- A day is corrected only where its numbers are valid and nothing blocks that. -/
theorem decided_correct {valid : Bool} {rawOvertime : H} {reasons : List String}
    (plain : common.kind = .noop)
    (correct : (decided valid rawOvertime reasons common).kind = .correct) :
    valid = true ∧ reasons = [] ∧
      (withinTolerance (targetOf common) 0 = true ∧
          decided valid rawOvertime reasons common =
            { common with
              kind := .correct, action := some .deleteZeroRegular, afterDuration := some 0 } ∨
        withinTolerance (targetOf common) 0 = false ∧
          decided valid rawOvertime reasons common =
            { common with
              kind := .correct, action := some .durationUpdate,
              afterDuration := some (targetOf common) }) := by
  unfold decided at correct ⊢
  split at correct
  · cases correct
  · next numbers =>
      rw [if_neg numbers]
      split at correct
      · rw [plain] at correct
        cases correct
      · next differ =>
          rw [if_neg differ]
          split at correct
          · rw [plain] at correct
            cases correct
          · next signal =>
              rw [if_neg signal]
              split at correct
              · cases correct
              · next unblocked =>
                  rw [if_neg unblocked]
                  refine ⟨by simpa using numbers, not_not.mp unblocked, ?_⟩
                  by_cases near : withinTolerance (targetOf common) 0 = true
                  · exact Or.inl ⟨near, if_pos near⟩
                  · exact Or.inr ⟨Bool.eq_false_iff.mpr near, if_neg near⟩

/-- Valid numbers that agree are left alone. -/
theorem decided_agree {valid : Bool} {rawOvertime : H} {reasons : List String}
    (numbers : valid = true)
    (regular : withinTolerance common.workRegular common.attendanceRegular = true)
    (overtime : withinTolerance common.workOvertime common.attendanceOvertime = true) :
    decided valid rawOvertime reasons common = common := by
  unfold decided
  rw [numbers, regular, overtime]
  rfl

/-- What the absence of blockers says. -/
structure Unblocked (workEntries : List (WorkRow H)) (attendances : List (AttendanceRow H))
    (common : Decision H) : Prop where
  single : (entriesOf "WORK100" workEntries).length = 1
  linked : ∃ attendance ∈ attendances, common.attendanceId = some attendance.id
  approved : ∀ row ∈ attendances, Hours.lt 0 (numericHours row.overtimeHours).1 = true →
    row.overtimeStatus = "approved" ∧
      withinTolerance (numericHours row.overtimeHours).1
        (numericHours row.validatedOvertimeHours).1 = true
  validated : withinTolerance (totalOf AttendanceRow.overtimeHours attendances)
    common.attendanceOvertime = true
  payroll : withinTolerance common.workOvertime common.attendanceOvertime = true
  draft : ∀ row ∈ workEntries, row.state = "draft" ∧ row.conflict = false
  notNegative : Hours.lt (targetOf common) 0 = true → withinTolerance (targetOf common) 0 = true

theorem unblocked_of_nil {workEntries : List (WorkRow H)} {attendances : List (AttendanceRow H)}
    (clear : dayBlockers workEntries attendances common = []) :
    Unblocked workEntries attendances common := by
  simp only [dayBlockers, blockers, List.append_eq_nil_iff, ite_eq_right_iff, List.cons_ne_nil,
    imp_false] at clear
  obtain ⟨⟨⟨⟨⟨⟨⟨⟨⟨single, linked⟩, -⟩, approved⟩, validated⟩, payroll⟩, -⟩, draft⟩, conflict⟩,
    negative⟩ := clear
  rw [not_or, not_not] at linked
  rw [Bool.or_eq_true, not_or] at validated
  refine ⟨not_not.mp single, ?_, fun row member overtime => ⟨?_, ?_⟩, ?_, ?_,
    fun row member => ⟨?_, ?_⟩, fun below => ?_⟩
  · obtain ⟨attendance, member, same⟩ := List.mem_map.mp linked.2
    exact ⟨attendance, member, same.symm⟩
  · by_contra other
    refine approved (List.any_eq_true.mpr ⟨row, member, ?_⟩)
    rw [overtime, Bool.true_and]
    exact bne_iff_ne.mpr other
  · by_contra apart
    refine validated.1 (List.any_eq_true.mpr ⟨row, member, ?_⟩)
    rw [overtime, Bool.true_and, Bool.eq_false_iff.mpr apart]
    rfl
  · simpa using validated.2
  · simpa using payroll
  · by_contra other
    exact draft (List.any_eq_true.mpr ⟨row, member, bne_iff_ne.mpr other⟩)
  · exact Bool.eq_false_iff.mpr fun conflicting =>
      conflict (List.any_eq_true.mpr ⟨row, member, conflicting⟩)
  · by_contra apart
    refine negative ?_
    rw [below, Bool.eq_false_iff.mpr apart]
    rfl

end Figures

/-! ## The correction -/

section Correction

variable {H : Type}

/-- Whether a row is the entry that a decision is about. -/
def Decision.Concerns (decision : Decision H) (row : WorkRow H) : Prop :=
  row.typeCode = "WORK100" ∧ decision.workEntryId = some row.id

instance (decision : Decision H) (row : WorkRow H) : Decidable (decision.Concerns row) :=
  inferInstanceAs (Decidable (_ ∧ _))

/-- The work entries of the day once the action of a decision was taken. -/
def Decision.applied (decision : Decision H) (workEntries : List (WorkRow H)) :
    List (WorkRow H) :=
  match decision.action with
  | some .deleteZeroRegular => workEntries.filter fun row => ¬ decision.Concerns row
  | some .durationUpdate => workEntries.map fun row =>
      if decision.Concerns row then
        { row with duration := decision.afterDuration.getD row.duration }
      else row
  | none => workEntries

theorem mem_entriesOf {typeCode : String} {workEntries : List (WorkRow H)} {row : WorkRow H} :
    row ∈ entriesOf typeCode workEntries ↔ row ∈ workEntries ∧ row.typeCode = typeCode := by
  rw [entriesOf, List.mem_filter, decide_eq_true_iff]

theorem entriesOf_filter_not {decision : Decision H} {workEntries : List (WorkRow H)}
    (typeCode : String) (other : typeCode ≠ "WORK100") :
    entriesOf typeCode (workEntries.filter fun row => ¬ decision.Concerns row) =
      entriesOf typeCode workEntries := by
  rw [entriesOf, List.filter_filter]
  refine List.filter_congr fun row _ => ?_
  by_cases same : row.typeCode = typeCode
  · have kept : ¬ decision.Concerns row := fun concerns => other (same ▸ concerns.1)
    rw [decide_eq_true same, decide_eq_true kept, Bool.true_and]
  · rw [decide_eq_false same, Bool.false_and]

/-- The one regular entry of a day is the entry that its decision concerns. -/
theorem concerns_iff {decision : Decision H} {workEntries : List (WorkRow H)} {entry row : WorkRow H}
    (single : entriesOf "WORK100" workEntries = [entry])
    (about : decision.workEntryId = some entry.id) (member : row ∈ workEntries) :
    decision.Concerns row ↔ row.typeCode = "WORK100" := by
  refine and_iff_left_of_imp fun regular => ?_
  have found : row ∈ entriesOf "WORK100" workEntries := mem_entriesOf.mpr ⟨member, regular⟩
  rw [single, List.mem_singleton] at found
  rw [about, found]

theorem entriesOf_map {change : WorkRow H → WorkRow H}
    (kept : ∀ row, (change row).typeCode = row.typeCode) (typeCode : String)
    (workEntries : List (WorkRow H)) :
    entriesOf typeCode (workEntries.map change) = (entriesOf typeCode workEntries).map change := by
  rw [entriesOf, List.filter_map, entriesOf]
  congr 1
  refine List.filter_congr fun row _ => ?_
  rw [Function.comp_apply, kept]

end Correction

/-! ## Exact hours -/

/-- The hours that a field counts for. -/
def exactHours (value : Option ℚ) : ℚ := value.getD 0

theorem numericHours_exact (value : Option ℚ) :
    numericHours value = (some (exactHours value), value.isSome) := by
  cases value <;> rfl

theorem total_exact (values : List ℚ) : total (values.map some) = some values.sum := by
  have extended : ∀ start : ℚ, (values.map some).foldl (· + ·) (some start) =
      some (start + values.sum) := by
    induction values with
    | nil => exact fun start => congrArg some (add_zero start).symm
    | cons value rest ih =>
        intro start
        rw [List.map_cons, List.foldl_cons, List.sum_cons, ← add_assoc]
        exact ih (start + value)
  exact (extended 0).trans (congrArg some (zero_add _))

theorem totalOf_exact {Row : Type} (field : Row → Option ℚ) (rows : List Row) :
    totalOf field rows = some (rows.map fun row => exactHours (field row)).sum := by
  rw [totalOf, ← total_exact, List.map_map]
  refine congrArg total (List.map_congr_left fun row _ => ?_)
  rw [numericHours_exact]
  rfl

theorem withinTolerance_self (hours : ℚ) : withinTolerance (some hours) (some hours) = true := by
  have none_apart : withinTolerance hours hours = true := by
    unfold withinTolerance
    rw [sub_self]
    decide +kernel
  exact none_apart

theorem withinTolerance_comm (hours others : ℚ) :
    withinTolerance (some hours) (some others) = withinTolerance (some others) (some hours) := by
  have swapped : withinTolerance hours others = withinTolerance others hours := by
    unfold withinTolerance
    rw [show Hours.abs (hours - others) = Hours.abs (others - hours) from abs_sub_comm hours others]
  exact swapped

/-- Hours that are not negative and not within a minute of none are above a minute. -/
theorem tolerance_lt {hours : ℚ} (apart : withinTolerance (some hours) (some 0) = false)
    (notNegative : 0 ≤ hours) : 1 / 60 < hours := by
  have unequal : withinTolerance hours 0 = false := apart
  unfold withinTolerance at unequal
  rw [Bool.or_eq_false_iff] at unequal
  obtain ⟨below, close⟩ := unequal
  have size : |hours - 0| = hours := by rw [sub_zero, abs_of_nonneg notNegative]
  have least : ¬ |hours - 0| < 1 / 60 := of_decide_eq_false below
  rw [size] at least
  refine lt_of_le_of_ne (not_lt.mp least) fun same => ?_
  have near : Hours.isClose |hours - 0| (1 / 60 : ℚ) = true := by
    rw [size, ← same]
    decide +kernel
  rw [show Hours.isClose (Hours.abs (hours - 0)) (Hours.tolerance : ℚ) =
    Hours.isClose |hours - 0| (1 / 60 : ℚ) from rfl, near] at close
  cases close

/-! ## What a corrected day is -/

/-- A day that may be corrected, and how it is. -/
structure Correctable (workEntries : List (WorkRow (Option ℚ)))
    (attendances : List (AttendanceRow (Option ℚ))) (decision : Decision (Option ℚ)) : Prop where
  /-- The one regular entry, which belongs to an attendance of the day. -/
  entry : ∃ row, entriesOf "WORK100" workEntries = [row] ∧ decision.workEntryId = some row.id ∧
    decision.attendanceId = row.attendanceId ∧
    ∃ attendance ∈ attendances, row.attendanceId = some attendance.id
  draft : ∀ row ∈ workEntries, row.state = "draft" ∧ row.conflict = false
  /-- Overtime is approved and as validated. -/
  approved : ∀ row ∈ attendances, ∀ hours, row.overtimeHours = some hours → 0 < hours →
    row.overtimeStatus = "approved" ∧
      withinTolerance (some hours) row.validatedOvertimeHours = true
  /-- The overtime of the day is as validated and as paid. -/
  validated : withinTolerance (totalOf AttendanceRow.overtimeHours attendances)
    (totalOf AttendanceRow.validatedOvertimeHours attendances) = true
  payroll : withinTolerance (totalOf WorkRow.duration (entriesOf "OVERTIME" workEntries))
    (totalOf AttendanceRow.validatedOvertimeHours attendances) = true
  /-- The entry is removed, or keeps more than a minute. -/
  action : (decision.action = some .deleteZeroRegular ∧ decision.afterDuration = some (some 0)) ∨
    (decision.action = some .durationUpdate ∧
      ∃ hours : ℚ, decision.afterDuration = some (some hours) ∧ 1 / 60 < hours)

section Day

variable (employeeId : ℤ) (employeeName : String) (workDate : ℤ)
  {workEntries : List (WorkRow (Option ℚ))} {attendances : List (AttendanceRow (Option ℚ))}

theorem numbersValid_iff : numbersValid workEntries attendances = true ↔
    (∀ row ∈ attendances, row.numericDataValid = true ∧ row.expectedHours.isSome = true ∧
      row.overtimeHours.isSome = true ∧ row.validatedOvertimeHours.isSome = true) ∧
    ∀ row ∈ workEntries, row.numericDataValid = true ∧ row.duration.isSome = true := by
  simp only [numbersValid, numericHours_exact, Bool.and_eq_true, List.all_eq_true, and_assoc]

variable (attendances) in
/-- The regular entry and its target, where there is one entry. -/
theorem commonDecision_single {row : WorkRow (Option ℚ)}
    (single : entriesOf "WORK100" workEntries = [row]) :
    (commonDecision employeeId employeeName workDate workEntries attendances).workEntryId =
        some row.id ∧
      (commonDecision employeeId employeeName workDate workEntries attendances).attendanceId =
        row.attendanceId ∧
      targetOf (commonDecision employeeId employeeName workDate workEntries attendances) =
        totalOf AttendanceRow.expectedHours attendances := by
  unfold commonDecision targetOf
  rw [single]
  refine ⟨rfl, rfl, ?_⟩
  rw [totalOf_exact, totalOf_exact]
  dsimp only [sole]
  rw [numericHours_exact, List.map_singleton, List.sum_singleton]
  exact congrArg some (sub_sub_cancel _ _)

theorem correctable (correct :
    (classifyDay employeeId employeeName workDate workEntries attendances).kind = .correct) :
    Correctable workEntries attendances
      (classifyDay employeeId employeeName workDate workEntries attendances) := by
  rw [classifyDay_eq] at correct ⊢
  obtain ⟨valid, clear, cases⟩ := decided_correct rfl correct
  have unblocked := unblocked_of_nil clear
  obtain ⟨row, single⟩ := List.length_eq_one_iff.mp unblocked.single
  obtain ⟨id, attendanceId, target⟩ := commonDecision_single employeeId employeeName workDate
    attendances single
  obtain ⟨attendance, member, linked⟩ := unblocked.linked
  have entry : ∃ row, entriesOf "WORK100" workEntries = [row] ∧
      (commonDecision employeeId employeeName workDate workEntries attendances).workEntryId =
        some row.id ∧
      (commonDecision employeeId employeeName workDate workEntries attendances).attendanceId =
        row.attendanceId ∧
      ∃ attendance ∈ attendances, row.attendanceId = some attendance.id :=
    ⟨row, single, id, attendanceId, attendance, member, attendanceId ▸ linked⟩
  have approved : ∀ row ∈ attendances, ∀ hours, row.overtimeHours = some hours → 0 < hours →
      row.overtimeStatus = "approved" ∧
        withinTolerance (some hours) row.validatedOvertimeHours = true := by
    intro row member hours overtime positive
    obtain ⟨-, -, -, finite⟩ := (numbersValid_iff.mp valid).1 row member
    obtain ⟨validated, found⟩ := Option.isSome_iff_exists.mp finite
    have checked := unblocked.approved row member
    rw [overtime, found] at checked
    rw [found]
    exact checked (decide_eq_true positive)
  rcases cases with ⟨near, same⟩ | ⟨apart, same⟩
  · rw [same]
    exact ⟨entry, unblocked.draft, approved, unblocked.validated, unblocked.payroll,
      Or.inl ⟨rfl, rfl⟩⟩
  · rw [same]
    refine ⟨entry, unblocked.draft, approved, unblocked.validated, unblocked.payroll,
      Or.inr ⟨rfl, ?_⟩⟩
    have notNegative := unblocked.notNegative
    rw [target, totalOf_exact] at apart notNegative
    refine ⟨_, ?_, tolerance_lt apart ?_⟩
    · rw [target, totalOf_exact]
    · by_contra negative
      have near := notNegative (decide_eq_true (not_le.mp negative))
      exact absurd near (Bool.eq_false_iff.mp apart)

variable {decision : Decision (Option ℚ)}

/-- The valid numbers of a day stay valid when its entry is removed or gets a finite duration. -/
theorem numbersValid_applied (valid : numbersValid workEntries attendances = true)
    (finite : ∀ duration, decision.afterDuration = some duration → duration.isSome = true) :
    numbersValid (decision.applied workEntries) attendances = true := by
  obtain ⟨attended, worked⟩ := numbersValid_iff.mp valid
  refine numbersValid_iff.mpr ⟨attended, fun row member => ?_⟩
  unfold Decision.applied at member
  split at member
  · exact worked row (List.mem_of_mem_filter member)
  · obtain ⟨before, stored, rfl⟩ := List.mem_map.mp member
    split
    · refine ⟨(worked before stored).1, ?_⟩
      cases after : decision.afterDuration with
      | none => exact (worked before stored).2
      | some duration => exact finite duration after
    · exact worked before stored
  · exact worked row member

/-- The regular hours after the correction are the target, and other entries are as before. -/
theorem entriesOf_applied {entry : WorkRow (Option ℚ)}
    (single : entriesOf "WORK100" workEntries = [entry])
    (about : decision.workEntryId = some entry.id) :
    (decision.action = some .deleteZeroRegular →
      entriesOf "WORK100" (decision.applied workEntries) = []) ∧
    (decision.action = some .durationUpdate →
      entriesOf "WORK100" (decision.applied workEntries) =
        [{ entry with duration := decision.afterDuration.getD entry.duration }]) ∧
    entriesOf "OVERTIME" (decision.applied workEntries) = entriesOf "OVERTIME" workEntries := by
  let change := fun row : WorkRow (Option ℚ) =>
    if decision.Concerns row then
      { row with duration := decision.afterDuration.getD row.duration }
    else row
  have kept : ∀ row, (change row).typeCode = row.typeCode := by
    intro row
    dsimp only [change]
    split <;> rfl
  have found : entry ∈ entriesOf "WORK100" workEntries := by
    rw [single]
    exact List.mem_singleton_self entry
  have concerns : decision.Concerns entry := ⟨(mem_entriesOf.mp found).2, about⟩
  refine ⟨fun action => ?_, fun action => ?_, ?_⟩
  · rw [Decision.applied, action]
    refine List.filter_eq_nil_iff.mpr fun row found => ?_
    obtain ⟨stored, other⟩ := List.mem_filter.mp found
    rw [decide_eq_true_iff, concerns_iff single about stored] at other
    rw [decide_eq_true_iff]
    exact other
  · rw [Decision.applied, action]
    rw [entriesOf_map kept, single, List.map_singleton]
    dsimp only [change]
    rw [if_pos concerns]
  · unfold Decision.applied
    split
    · exact entriesOf_filter_not "OVERTIME" (by decide)
    · rw [entriesOf_map kept]
      refine (List.map_congr_left fun row found => ?_).trans (List.map_id _)
      have overtime := (mem_entriesOf.mp found).2
      have other : ¬ decision.Concerns row := by
        intro about
        rw [about.1] at overtime
        exact absurd overtime (by decide)
      dsimp only [change]
      rw [if_neg other, id]
    · rfl

/-- Once the correction is made, the day is left alone. -/
theorem noop_applied (correct :
    (classifyDay employeeId employeeName workDate workEntries attendances).kind = .correct) :
    (classifyDay employeeId employeeName workDate
      ((classifyDay employeeId employeeName workDate workEntries attendances).applied workEntries)
      attendances).kind = .noop := by
  have correctable := correctable employeeId employeeName workDate correct
  obtain ⟨entry, single, about, -⟩ := correctable.entry
  obtain ⟨removed, updated, overtime⟩ := entriesOf_applied single about
  have decision := classifyDay_eq employeeId employeeName workDate workEntries attendances
  rw [decision] at correct
  obtain ⟨valid, -, cases⟩ := decided_correct rfl correct
  rw [← decision] at cases
  obtain ⟨-, -, target⟩ := commonDecision_single employeeId employeeName workDate
    attendances single
  rw [target, totalOf_exact] at cases
  have after : ∀ duration,
      (classifyDay employeeId employeeName workDate workEntries attendances).afterDuration =
        some duration → duration.isSome = true := by
    intro duration stored
    rcases correctable.action with ⟨-, zero⟩ | ⟨-, hours, some_, -⟩
    · rw [zero, Option.some.injEq] at stored
      rw [← stored, Option.isSome_some]
    · rw [some_, Option.some.injEq] at stored
      rw [← stored, Option.isSome_some]
  rw [classifyDay_eq, decided_agree (numbersValid_applied valid after)]
  · rfl
  · change withinTolerance (totalOf WorkRow.duration (entriesOf "WORK100" _))
      (totalOf AttendanceRow.expectedHours attendances) = true
    rw [totalOf_exact AttendanceRow.expectedHours]
    rcases cases with ⟨near, same⟩ | ⟨-, same⟩
    · rw [removed (by rw [same])]
      exact (withinTolerance_comm _ _).trans near
    · rw [updated (by rw [same]), totalOf_exact, List.map_singleton, List.sum_singleton, same]
      exact withinTolerance_self _
  · change withinTolerance (totalOf WorkRow.duration (entriesOf "OVERTIME" _))
      (totalOf AttendanceRow.validatedOvertimeHours attendances) = true
    rw [overtime]
    exact correctable.payroll

end Day

/-! ## The order of the rows -/

theorem sole_perm {α : Type} {items others : List α} (same : items.Perm others) :
    sole items = sole others := by
  rcases items with _ | ⟨item, _ | ⟨second, rest⟩⟩
  · rw [List.Perm.nil_eq same]
  · rw [List.Perm.singleton_eq same]
  · rcases others with _ | ⟨other, _ | ⟨another, more⟩⟩
    · rfl
    · exact absurd same.length_eq (by simp)
    · rfl

theorem totalOf_perm {Row : Type} (field : Row → Option ℚ) {rows others : List Row}
    (same : rows.Perm others) : totalOf field rows = totalOf field others := by
  rw [totalOf_exact, totalOf_exact, (same.map _).sum_eq]

theorem classifyDay_perm (employeeId : ℤ) (employeeName : String) (workDate : ℤ)
    {workEntries otherEntries : List (WorkRow (Option ℚ))}
    {attendances otherAttendances : List (AttendanceRow (Option ℚ))}
    (entries : workEntries.Perm otherEntries) (attended : attendances.Perm otherAttendances) :
    classifyDay employeeId employeeName workDate workEntries attendances =
      classifyDay employeeId employeeName workDate otherEntries otherAttendances := by
  have typed : ∀ typeCode, (entriesOf typeCode workEntries).Perm (entriesOf typeCode otherEntries) :=
    fun typeCode => entries.filter _
  have common : commonDecision employeeId employeeName workDate workEntries attendances =
      commonDecision employeeId employeeName workDate otherEntries otherAttendances := by
    unfold commonDecision
    rw [sole_perm (typed "WORK100"), totalOf_perm _ (typed "WORK100"),
      totalOf_perm _ (typed "OVERTIME"), totalOf_perm _ attended, totalOf_perm _ attended]
  have blocked : ∀ decision, dayBlockers workEntries attendances decision =
      dayBlockers otherEntries otherAttendances decision := by
    intro decision
    unfold dayBlockers blockers
    simp only [(typed "WORK100").length_eq, totalOf_perm AttendanceRow.overtimeHours attended,
      attended.any_eq, entries.any_eq, (attended.map _).mem_iff]
  have valid : numbersValid workEntries attendances =
      numbersValid otherEntries otherAttendances := by
    unfold numbersValid
    rw [attended.all_eq, entries.all_eq]
  rw [classifyDay_eq, classifyDay_eq, common, blocked, valid, totalOf_perm _ attended]

/-- A day that is to be corrected passed every guard and is settled by its correction; and the order
of the rows does not change a decision. -/
theorem classifyDay_settles (employeeId : ℤ) (employeeName : String) (workDate : ℤ)
    (workEntries : List (WorkRow (Option ℚ))) (attendances : List (AttendanceRow (Option ℚ))) :
    let decision := classifyDay employeeId employeeName workDate workEntries attendances
    (decision.kind = .correct →
      Correctable workEntries attendances decision ∧
      (classifyDay employeeId employeeName workDate (decision.applied workEntries)
        attendances).kind = .noop) ∧
    ∀ otherEntries otherAttendances, workEntries.Perm otherEntries →
      attendances.Perm otherAttendances →
      classifyDay employeeId employeeName workDate otherEntries otherAttendances = decision := by
  refine ⟨fun correct => ⟨?_, ?_⟩, fun otherEntries otherAttendances entries attended => ?_⟩
  · exact correctable employeeId employeeName workDate correct
  · exact noop_applied employeeId employeeName workDate correct
  · exact (classifyDay_perm employeeId employeeName workDate entries attended).symm

/-- Eight and a half regular hours where attendance has eight, and two hours of overtime. -/
def halfHourOver : List (WorkRow (Option ℚ)) :=
  [{ id := 1, employeeId := 7, employeeName := "Ann", date := 0, duration := some (17 / 2),
     state := "draft", conflict := false, active := true, numericDataValid := true,
     typeCode := "WORK100", attendanceId := some 5, writeDate := 0 },
   { id := 2, employeeId := 7, employeeName := "Ann", date := 0, duration := some 2,
     state := "draft", conflict := false, active := true, numericDataValid := true,
     typeCode := "OVERTIME", attendanceId := some 5, writeDate := 0 }]

def tenHours : List (AttendanceRow (Option ℚ)) :=
  [{ id := 5, employeeId := 7, date := 0, expectedHours := some 8, overtimeHours := some 2,
     validatedOvertimeHours := some 2, overtimeStatus := "approved", numericDataValid := true }]

theorem half_hour_settled :
    (classifyDay 7 "Ann" 0 halfHourOver tenHours).kind = .correct ∧
      (classifyDay 7 "Ann" 0 ((classifyDay 7 "Ann" 0 halfHourOver tenHours).applied halfHourOver)
        tenHours).kind = .noop :=
  have correct : (classifyDay 7 "Ann" 0 halfHourOver tenHours).kind = .correct := by decide +kernel
  ⟨correct, ((classifyDay_settles 7 "Ann" 0 halfHourOver tenHours).1 correct).2⟩

end PlantManager.Payroll

import PlantManager.Production.DayAttribution

/-! # What the shares of a day add up to

`Production.DayConserves` says what the credit of a day is to be: a center that ends up
with operators passes its whole total on, one without credits nobody, the schedule comes before
retroactive attributions, and days add up in any order. All but the first holds of every day.
-/

namespace PlantManager.Production

open PlantManager.Mapping

/-! ## Who operates a center -/

/-- Whether the schedule names anyone at a center. -/
def Scheduled (assignments : Dictionary String (List String)) (wcName : String) : Prop :=
  wcName ≠ timeOffKey ∧ (assignments.get wcName).getD [] ≠ []

instance (assignments : Dictionary String (List String)) (wcName : String) :
    Decidable (Scheduled assignments wcName) :=
  inferInstanceAs (Decidable (_ ∧ _))

/-- The names at a center: those of the schedule, or else the retroactive ones. -/
def operatorsAt (assignments : Dictionary String (List String))
    (extraAssignments : Option (Dictionary String (List String))) (wcName : String) :
    List String :=
  if Scheduled assignments wcName then (assignments.get wcName).getD []
  else ((extraAssignments.getD ∅).get wcName).getD []

/-- The names of a center as the loops keep them. -/
def listed (operators : List String) : Option (List String) :=
  if operators = [] then none else some operators

theorem get_addScheduled_self (merged : Dictionary String (List String)) (wcName : String)
    (operators : List String) :
    (addScheduled merged (wcName, operators)).get wcName =
      if wcName = timeOffKey ∨ operators = [] then merged.get wcName else some operators := by
  unfold addScheduled
  split
  · rfl
  · rw [Dictionary.get_alter, if_pos rfl]

variable {entry : String × List String} {merged : Dictionary String (List String)}

theorem get_addScheduled_other {wcName : String} (other : entry.1 ≠ wcName) :
    (addScheduled merged entry).get wcName = merged.get wcName := by
  unfold addScheduled
  split
  · rfl
  · rw [Dictionary.get_alter, if_neg (Ne.symm other)]

theorem get_scheduled (assignments : Dictionary String (List String)) (wcName : String) :
    (assignments.entries.foldl addScheduled ∅).get wcName =
      if Scheduled assignments wcName then assignments.get wcName else none := by
  rw [Dictionary.read_foldl_entries (fun merged => merged.get wcName) wcName
    (fun operators stored =>
      if wcName = timeOffKey ∨ operators = [] then stored else some operators)
    (fun merged operators => get_addScheduled_self merged wcName operators)
    fun _ _ => get_addScheduled_other]
  have nothing : (∅ : Dictionary String (List String)).get wcName = none := rfl
  rw [nothing]
  by_cases scheduled : Scheduled assignments wcName
  · rw [if_pos scheduled]
    obtain ⟨place, named⟩ := scheduled
    cases found : assignments.get wcName with
    | none => exact absurd (by rw [found]; rfl) named
    | some operators =>
        rw [found, Option.getD_some] at named
        rw [Option.elim_some, if_neg (not_or.mpr ⟨place, named⟩)]
  · rw [if_neg scheduled]
    cases found : assignments.get wcName with
    | none => rfl
    | some operators =>
        rw [Option.elim_some, if_pos]
        by_contra kept
        obtain ⟨place, named⟩ := not_or.mp kept
        exact scheduled ⟨place, by rw [found]; exact named⟩

theorem get_addExtra_self (merged : Dictionary String (List String)) (wcName : String)
    (operators : List String) :
    (addExtra merged (wcName, operators)).get wcName =
      (merged.get wcName).or (listed operators) := by
  unfold addExtra listed
  by_cases present : wcName ∈ merged.keys
  · obtain ⟨stored, found⟩ := Dictionary.mem_keys_iff.mp present
    rw [if_pos present, found, Option.some_or]
  · rw [if_neg present, Dictionary.get_eq_none_iff.mpr present, Option.none_or]
    split
    · exact Dictionary.get_eq_none_iff.mpr present
    · rw [Dictionary.get_alter, if_pos rfl]

theorem get_addExtra_other {wcName : String} (other : entry.1 ≠ wcName) :
    (addExtra merged entry).get wcName = merged.get wcName := by
  unfold addExtra
  split
  · rfl
  · split
    · rfl
    · rw [Dictionary.get_alter, if_neg (Ne.symm other)]

/-- The merged dictionary has the operators of each center. -/
theorem get_mergedOperators (assignments : Dictionary String (List String))
    (extraAssignments : Option (Dictionary String (List String))) (wcName : String) :
    (mergedOperators assignments extraAssignments).get wcName =
      listed (operatorsAt assignments extraAssignments wcName) := by
  rw [mergedOperators, Dictionary.read_foldl_entries (fun merged => merged.get wcName) wcName
    (fun operators stored => stored.or (listed operators))
    (fun merged operators => get_addExtra_self merged wcName operators)
    fun _ _ => get_addExtra_other, get_scheduled]
  unfold operatorsAt
  by_cases scheduled : Scheduled assignments wcName
  · rw [if_pos scheduled, if_pos scheduled]
    obtain ⟨-, named⟩ := scheduled
    cases found : assignments.get wcName with
    | none => exact absurd (by rw [found]; rfl) named
    | some operators =>
        rw [found, Option.getD_some] at named
        rw [Option.getD_some, listed, if_neg named]
        cases (extraAssignments.getD ∅).get wcName <;> rfl
  · rw [if_neg scheduled, if_neg scheduled]
    cases (extraAssignments.getD ∅).get wcName <;> rfl

/-! ## Who is credited -/

section Day

variable (assignments : Dictionary String (List String)) (wcTotals : Dictionary String (ℚ × ℚ))
  (elapsedMinutes : ℚ) (extraAssignments : Option (Dictionary String (List String)))
  (excludedMinutes : Option (Attribution ℚ))

/-- One credit for each of some people at a work center. -/
theorem find_foldl_alterAt {ν : Type} (out : Attribution ν) (wcName : String)
    (credit : String → ν) (operators : List String) (person otherWc : String) :
    (operators.foldl (fun out person => out.alterAt person wcName fun _ => credit person)
        out).find person otherWc =
      if person ∈ operators ∧ otherWc = wcName then some (credit person)
      else out.find person otherWc := by
  induction operators generalizing out with
  | nil => simp
  | cons operator rest ih =>
      rw [List.foldl_cons, ih, Attribution.find_alterAt]
      by_cases later : person ∈ rest ∧ otherWc = wcName
      · rw [if_pos later, if_pos ⟨List.mem_cons_of_mem _ later.1, later.2⟩]
      · rw [if_neg later]
        by_cases now : person = operator ∧ otherWc = wcName
        · rw [if_pos now, if_pos ⟨now.1 ▸ List.mem_cons_self, now.2⟩, now.1]
        · rw [if_neg now, if_neg]
          rintro ⟨member, same⟩
          rcases List.mem_cons.mp member with first | member
          · exact now ⟨first, same⟩
          · exact later ⟨member, same⟩

theorem find_attributeForDay (person wcName : String) :
    (attributeForDay assignments wcTotals elapsedMinutes extraAssignments excludedMinutes).find
        person wcName =
      if person ∈ operatorsAt assignments extraAssignments wcName then
        some (dayCredit wcTotals elapsedMinutes excludedMinutes wcName
          (operatorsAt assignments extraAssignments wcName) person)
      else none := by
  rw [attributeForDay, Dictionary.read_foldl_entries
    (fun out : Attribution DayCredit => out.find person wcName) wcName
    (fun operators stored =>
      if person ∈ operators then
        some (dayCredit wcTotals elapsedMinutes excludedMinutes wcName operators person)
      else stored), get_mergedOperators, listed]
  · have nothing : (∅ : Attribution DayCredit).find person wcName = none := rfl
    rw [nothing]
    split
    · next empty => rw [Option.elim_none, empty, if_neg List.not_mem_nil]
    · rfl
  · intro out operators
    rw [creditOperators, find_foldl_alterAt]
    simp only [and_true]
  · intro out entry other
    rw [creditOperators, find_foldl_alterAt, if_neg fun both => other both.2.symm]

/-- Operators are among the people of the day. -/
theorem mem_keys_attributeForDay {person wcName : String}
    (operates : person ∈ operatorsAt assignments extraAssignments wcName) :
    person ∈ (attributeForDay assignments wcTotals elapsedMinutes extraAssignments
      excludedMinutes).keys := by
  have found := find_attributeForDay assignments wcTotals elapsedMinutes extraAssignments
    excludedMinutes person wcName
  rw [if_pos operates, Attribution.find, Option.bind_eq_some_iff] at found
  obtain ⟨wcMap, stored, -⟩ := found
  exact Dictionary.mem_keys_iff.mpr ⟨wcMap, stored⟩

/-- A center pays one share for each person, and a share is a part for each listed name. -/
theorem creditedAt_attributeForDay (amount : DayCredit → ℚ) (wcName : String) (share : ℚ)
    (shares : ∀ person, amount (dayCredit wcTotals elapsedMinutes excludedMinutes wcName
      (operatorsAt assignments extraAssignments wcName) person) = share) :
    (attributeForDay assignments wcTotals elapsedMinutes extraAssignments
        excludedMinutes).creditedAt amount wcName =
      (operatorsAt assignments extraAssignments wcName).dedup.length * share := by
  let day := attributeForDay assignments wcTotals elapsedMinutes extraAssignments excludedMinutes
  let operators := operatorsAt assignments extraAssignments wcName
  have paid : ∀ person, (day.find person wcName).elim 0 amount =
      if person ∈ operators then share else 0 := by
    intro person
    rw [find_attributeForDay]
    by_cases operates : person ∈ operators
    · rw [if_pos operates, if_pos operates, Option.elim_some, shares]
    · rw [if_neg operates, if_neg operates, Option.elim_none]
  have people : (day.keys.filter fun person => person ∈ operators).Perm operators.dedup := by
    refine (List.perm_ext_iff_of_nodup (day.nodup_keys.filter _) (List.nodup_dedup _)).mpr ?_
    intro person
    rw [List.mem_filter, List.mem_dedup, decide_eq_true_iff]
    exact and_iff_right_of_imp (mem_keys_attributeForDay _ _ _ _ _)
  calc (day.keys.map fun person => (day.find person wcName).elim 0 amount).sum
      = (day.keys.map fun person => if person ∈ operators then share else 0).sum := by
        simp only [paid]
    _ = ((day.keys.filter fun person => person ∈ operators).map fun _ => share).sum :=
        sum_map_ite (fun person => person ∈ operators) (fun _ => share) day.keys
    _ = operators.dedup.length * share := by
        rw [List.map_const', List.sum_replicate, people.length_eq, nsmul_eq_mul]

/-- Shares of a total for the listed names add up to it where no name is listed twice. -/
theorem dedup_mul_share_eq_iff {operators : List String} (staffed : operators ≠ []) (total : ℚ) :
    operators.dedup.length * (total / operators.length) = total ↔
      operators.Nodup ∨ total = 0 := by
  have counted : (operators.length : ℚ) ≠ 0 :=
    Nat.cast_ne_zero.mpr fun empty => staffed (List.length_eq_zero_iff.mp empty)
  rw [← mul_div_assoc, div_eq_iff counted, mul_comm total, mul_eq_mul_right_iff, Nat.cast_inj]
  refine or_congr_left ⟨fun same => ?_, fun distinct => by rw [distinct.dedup]⟩
  rw [← (List.dedup_sublist operators).eq_of_length same]
  exact List.nodup_dedup operators

/-- What the credit of a day is to be. -/
structure DayConserves : Prop where
  /-- A center with operators passes its total on. -/
  whole : ∀ wcName, operatorsAt assignments extraAssignments wcName ≠ [] →
    (attributeForDay assignments wcTotals elapsedMinutes extraAssignments
        excludedMinutes).creditedAt DayCredit.units wcName =
      ((wcTotals.get wcName).getD (0, 0)).1 ∧
    (attributeForDay assignments wcTotals elapsedMinutes extraAssignments
        excludedMinutes).creditedAt DayCredit.downtime wcName =
      ((wcTotals.get wcName).getD (0, 0)).2
  /-- A center without operators credits nobody. -/
  nobody : ∀ wcName, operatorsAt assignments extraAssignments wcName = [] → ∀ person,
    (attributeForDay assignments wcTotals elapsedMinutes extraAssignments
        excludedMinutes).find person wcName = none
  /-- Whoever else is attributed to it, a scheduled center credits its operators. -/
  scheduleFirst : ∀ wcName, Scheduled assignments wcName → ∀ otherExtra person,
    (attributeForDay assignments wcTotals elapsedMinutes extraAssignments
        excludedMinutes).find person wcName =
      (attributeForDay assignments wcTotals elapsedMinutes otherExtra
        excludedMinutes).find person wcName

/-- The names at a center are distinct, or there is nothing to share. -/
def Shareable (operators : List String) (totals : ℚ × ℚ) : Prop :=
  operators.Nodup ∨ totals = (0, 0)

theorem whole_iff {wcName : String}
    (staffed : operatorsAt assignments extraAssignments wcName ≠ []) :
    ((attributeForDay assignments wcTotals elapsedMinutes extraAssignments
          excludedMinutes).creditedAt DayCredit.units wcName =
        ((wcTotals.get wcName).getD (0, 0)).1 ∧
      (attributeForDay assignments wcTotals elapsedMinutes extraAssignments
          excludedMinutes).creditedAt DayCredit.downtime wcName =
        ((wcTotals.get wcName).getD (0, 0)).2) ↔
      Shareable (operatorsAt assignments extraAssignments wcName)
        ((wcTotals.get wcName).getD (0, 0)) := by
  let names := operatorsAt assignments extraAssignments wcName
  let totals := (wcTotals.get wcName).getD (0, 0)
  rw [creditedAt_attributeForDay _ _ _ _ _ DayCredit.units wcName (totals.1 / names.length)
      fun _ => rfl,
    creditedAt_attributeForDay _ _ _ _ _ DayCredit.downtime wcName (totals.2 / names.length)
      fun _ => rfl,
    dedup_mul_share_eq_iff staffed, dedup_mul_share_eq_iff staffed, ← or_and_left, Shareable,
    Prod.ext_iff]

end Day

/-! ## Several days -/

theorem find_addPerson (out : Attribution RangeCredit)
    (entry : String × Dictionary String DayCredit) (person wcName : String) :
    (addPerson out entry).find person wcName =
      if person = entry.1 then
        (entry.2.get wcName).elim (out.find person wcName) fun credit =>
          some (RangeCredit.add credit ((out.find person wcName).getD RangeCredit.zero))
      else out.find person wcName := by
  have entered : Attribution.find (out.setDefault entry.1 ∅) person wcName =
      out.find person wcName := by
    rw [Attribution.find, Dictionary.setDefault, Dictionary.get_alter]
    by_cases same : person = entry.1
    · subst same
      rw [if_pos rfl, Option.bind_some, Attribution.find]
      cases out.get entry.1 <;> rfl
    · rw [if_neg same, Attribution.find]
  by_cases same : person = entry.1
  · subst same
    rw [if_pos rfl, addPerson, Dictionary.read_foldl_entries
      (fun out : Attribution RangeCredit => out.find entry.1 wcName) wcName
      (fun credit stored => some (RangeCredit.add credit (stored.getD RangeCredit.zero))), entered]
    · intro out credit
      rw [addCenter, Attribution.find_alterAt, if_pos ⟨rfl, rfl⟩]
    · intro out center other
      rw [addCenter, Attribution.find_alterAt, if_neg fun both => other both.2.symm]
  · rw [if_neg same, addPerson, ← entered]
    refine List.foldlRecOn (motive := fun out => Attribution.find out person wcName = _) _ _ rfl ?_
    intro out kept center _
    rw [addCenter, Attribution.find_alterAt, if_neg fun both => same both.1, kept]

theorem find_addDay (out : Attribution RangeCredit) (daily : Attribution DayCredit)
    (person wcName : String) :
    (addDay out daily).find person wcName =
      (daily.find person wcName).elim (out.find person wcName) fun credit =>
        some (RangeCredit.add credit ((out.find person wcName).getD RangeCredit.zero)) := by
  rw [addDay, Dictionary.read_foldl_entries
    (fun out : Attribution RangeCredit => out.find person wcName) person
    (fun wcMap stored => (wcMap.get wcName).elim stored fun credit =>
      some (RangeCredit.add credit (stored.getD RangeCredit.zero)))]
  · unfold Attribution.find
    cases daily.get person <;> rfl
  · intro out wcMap
    rw [find_addPerson, if_pos rfl]
  · intro out entry other
    rw [find_addPerson, if_neg (Ne.symm other)]

/-- What a person is credited with at a center over some days. -/
def creditOver (days : List (Attribution DayCredit)) (person wcName : String) :
    Option RangeCredit :=
  let credits := days.filterMap fun daily => daily.find person wcName
  if credits = [] then none else some (RangeCredit.sum credits)

theorem RangeCredit.foldl_add (credits : List DayCredit) (start : RangeCredit) :
    credits.foldl (fun stored credit => RangeCredit.add credit stored) start =
      ⟨start.units + (RangeCredit.sum credits).units,
        start.downtime + (RangeCredit.sum credits).downtime,
        start.hours + (RangeCredit.sum credits).hours,
        start.daysWorked + (RangeCredit.sum credits).daysWorked⟩ := by
  induction credits generalizing start with
  | nil => simp [RangeCredit.sum]
  | cons credit rest ih =>
      rw [List.foldl_cons, ih]
      simp only [RangeCredit.add, RangeCredit.sum, List.map_cons, List.sum_cons, add_assoc]

theorem find_foldl_addDay (days : List (Attribution DayCredit)) (out : Attribution RangeCredit)
    (person wcName : String) :
    (days.foldl addDay out).find person wcName =
      (days.filterMap fun daily => daily.find person wcName).foldl
        (fun stored credit => some (RangeCredit.add credit (stored.getD RangeCredit.zero)))
        (out.find person wcName) := by
  induction days generalizing out with
  | nil => rfl
  | cons daily rest ih =>
      rw [List.foldl_cons, ih, find_addDay, List.filterMap_cons]
      cases daily.find person wcName <;> rfl

theorem foldl_some_add (credits : List DayCredit) (stored : RangeCredit) :
    credits.foldl
        (fun stored credit => some (RangeCredit.add credit (stored.getD RangeCredit.zero)))
        (some stored) =
      some (credits.foldl (fun stored credit => RangeCredit.add credit stored) stored) := by
  induction credits generalizing stored with
  | nil => rfl
  | cons credit rest ih => exact ih _

/-- A range of days adds up the credits of its days. -/
theorem find_attributeForRange (days : List (Attribution DayCredit)) (person wcName : String) :
    (attributeForRange days).find person wcName = creditOver days person wcName := by
  rw [attributeForRange, find_foldl_addDay, creditOver]
  have nothing : (∅ : Attribution RangeCredit).find person wcName = none := rfl
  rw [nothing]
  cases days.filterMap fun daily => daily.find person wcName with
  | nil => rfl
  | cons credit rest =>
      rw [if_neg (List.cons_ne_nil credit rest), List.foldl_cons, foldl_some_add,
        RangeCredit.foldl_add]
      simp [RangeCredit.add, RangeCredit.sum, RangeCredit.zero]

theorem RangeCredit.sum_perm {credits others : List DayCredit} (same : credits.Perm others) :
    RangeCredit.sum credits = RangeCredit.sum others := by
  rw [RangeCredit.sum, RangeCredit.sum, (same.map _).sum_eq, (same.map _).sum_eq,
    (same.map _).sum_eq, (same.map _).sum_eq]

/-- The order of the days does not matter. -/
theorem creditOver_perm {days others : List (Attribution DayCredit)} (same : days.Perm others)
    (person wcName : String) : creditOver days person wcName = creditOver others person wcName := by
  have credits := same.filterMap fun daily => daily.find person wcName
  have none_iff : days.filterMap (fun daily => daily.find person wcName) = [] ↔
      others.filterMap (fun daily => daily.find person wcName) = [] := by
    rw [← List.length_eq_zero_iff, credits.length_eq, List.length_eq_zero_iff]
  rw [creditOver, creditOver, RangeCredit.sum_perm credits]
  exact if_congr none_iff rfl rfl

/-- The credit of a day is what it is to be exactly when, at every center with operators, no name
is listed twice or there is nothing to share; and days always add up. -/
theorem attributeForDay_conserves (assignments : Dictionary String (List String))
    (wcTotals : Dictionary String (ℚ × ℚ)) (elapsedMinutes : ℚ)
    (extraAssignments : Option (Dictionary String (List String)))
    (excludedMinutes : Option (Attribution ℚ)) :
    (DayConserves assignments wcTotals elapsedMinutes extraAssignments excludedMinutes ∧
      ∀ (days : List (Attribution DayCredit)) (person wcName : String),
        (attributeForRange days).find person wcName = creditOver days person wcName ∧
        ∀ others : List (Attribution DayCredit), days.Perm others →
          (attributeForRange days).find person wcName =
            (attributeForRange others).find person wcName) ↔
      ∀ wcName, operatorsAt assignments extraAssignments wcName ≠ [] →
        Shareable (operatorsAt assignments extraAssignments wcName)
          ((wcTotals.get wcName).getD (0, 0)) := by
  constructor
  · rintro ⟨conserves, -⟩ wcName staffed
    exact (whole_iff _ _ _ _ _ staffed).mp (conserves.whole wcName staffed)
  · intro shareable
    refine ⟨⟨fun wcName staffed => ?_, fun wcName empty person => ?_, ?_⟩, ?_⟩
    · exact (whole_iff _ _ _ _ _ staffed).mpr (shareable wcName staffed)
    · rw [find_attributeForDay, empty, if_neg List.not_mem_nil]
    · intro wcName scheduled otherExtra person
      rw [find_attributeForDay, find_attributeForDay, operatorsAt, operatorsAt, if_pos scheduled,
        if_pos scheduled]
    · intro days person wcName
      refine ⟨find_attributeForRange days person wcName, fun others same => ?_⟩
      rw [find_attributeForRange, find_attributeForRange, creditOver_perm same]

/-- A person with two attributions to the saw on one day. -/
def twiceAtSaw : Dictionary String (List String) :=
  ⟨[("Saw", ["Ann", "Ann", "Bo"])], List.nodup_singleton _⟩

/-- Ten of thirty units are lost. -/
theorem listed_twice_loses_units :
    ¬ DayConserves ∅ ⟨[("Saw", (30, 0))], List.nodup_singleton _⟩ 480 (some twiceAtSaw) none := by
  intro conserves
  have credited := (conserves.whole "Saw" (by decide +kernel)).1
  exact absurd credited (by decide +kernel)

end PlantManager.Production

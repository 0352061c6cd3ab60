import PlantManager.Checks.Raise
import PlantManager.Production.CreditConserved
import PlantManager.Production.DayAttribution

/-! # The snapshot of a day that is stored

Credits are attributed to identities (`Production.attributeForSegments`), and the
identities become the rows of one statement that inserts or updates
(`Production.flattenAttribution`). The statement needs rows with distinct keys, and
they have them exactly when no two identities with one stored id are credited at one work center
(`Production.flattenAttribution_storable_iff`).
-/

namespace PlantManager.Production

open Mapping

variable {T : Type*} [LinearOrder T]

/-! ## Attribution to identities -/

structure AttributionInput (T : Type*) where
  segments : List (WorkSegment T)
  /-- The units and the downtime of each work center. -/
  wcTotals : Dictionary String (ℚ × ℚ)
  samplesByWc : Dictionary String (List (T × ℚ))
  productiveMinutes : String → String → T → T → ℚ
  excludedMinutes : Dictionary PersonAttributionKey (Dictionary String ℚ)
  strict : Bool

def AttributionInput.creditInput (input : AttributionInput T) : CreditInput T where
  segments := input.segments
  wcTotals := input.wcTotals.mapValues fun totals => some totals.1
  samplesByWc := input.samplesByWc.mapValues fun samples =>
    samples.map fun sample => (sample.1, some sample.2)
  productiveMinutes := input.productiveMinutes
  productiveMinutesForSegment := none
  liveCap := none
  allowTotalFallback := !input.strict

def sampleTotalTolerance : ℚ := 1 / 1000000

def AttributionInput.Conserves (input : AttributionInput T) (wcName : String) : Prop :=
  let credited := (((creditWorkSegments input.creditInput).get wcName).getD []).map
    SegmentCredit.actualUnits |>.sum
  let sampled := (((input.samplesByWc.get wcName).getD []).map Prod.snd).sum
  let expected := ((input.wcTotals.get wcName).getD (0, 0)).1
  |credited - sampled| ≤ sampleTotalTolerance ∧ |credited - expected| ≤ sampleTotalTolerance

instance (input : AttributionInput T) (wcName : String) : Decidable (input.Conserves wcName) :=
  inferInstanceAs (Decidable (_ ∧ _))

/-- Identities, and what each is credited with at each work center. -/
abbrev SegmentAttribution := Dictionary PersonAttributionKey (Dictionary String DayCredit)

def SegmentAttribution.find (attribution : SegmentAttribution) (person : PersonAttributionKey)
    (wcName : String) : Option DayCredit :=
  (attribution.get person).bind fun wcMap => wcMap.get wcName

/-- A credit without minutes and units is passed over, and so is one of nobody. -/
def addCredit (input : AttributionInput T) (wcName : String) (out : SegmentAttribution)
    (credit : SegmentCredit T) : SegmentAttribution :=
  match credit.attributionKey with
  | none => out
  | some person =>
      if credit.productiveMinutes ≤ 0 ∧ credit.actualUnits ≤ 0 then out
      else
        let excluded := ((input.excludedMinutes.get person).bind (·.get wcName)).getD 0
        out.alter person fun wcMap => (wcMap.getD ∅).alter wcName fun stored =>
          let totals := stored.getD ⟨0, 0, 0, 1, excluded⟩
          { totals with
            units := totals.units + credit.actualUnits
            hours := totals.hours + credit.productiveMinutes / 60 }

/-- Divide the downtime of a work center by the hours of its people. -/
def shareDowntime (out : SegmentAttribution) (entry : String × ℚ × ℚ) : SegmentAttribution :=
  let totalHours := ((out.values.filterMap (·.get entry.1)).map DayCredit.hours).sum
  if totalHours ≤ 0 then out
  else out.mapValues fun wcMap => wcMap.modify entry.1 fun totals =>
    { totals with downtime := totals.downtime + entry.2.2 * totals.hours / totalHours }

def attributeForSegments (input : AttributionInput T) : Except String SegmentAttribution :=
  let credits := creditWorkSegments input.creditInput
  let wcNames := input.wcTotals.keys ++ input.samplesByWc.keys ++ credits.keys
  match if input.strict then wcNames.find? fun wcName => ¬input.Conserves wcName else none with
  | some wcName => .error s!"strict sample credit did not conserve {wcName} production"
  | none =>
      .ok (input.wcTotals.entries.foldl shareDowntime
        (credits.entries.foldl (fun out center =>
          center.2.foldl (addCredit input center.1) out) ∅))

/-! ## Rows -/

/-- An identity of an employee has a positive id and a name. -/
def PersonAttributionKey.WellFormed : PersonAttributionKey → Prop
  | .name _ => True
  | .identified odooId personName => 0 < odooId ∧ personName ≠ ""

instance : DecidablePred PersonAttributionKey.WellFormed := fun person =>
  match person with
  | .name _ => inferInstanceAs (Decidable True)
  | .identified _ _ => inferInstanceAs (Decidable (_ ∧ _))

def PersonAttributionKey.displayName : PersonAttributionKey → String
  | .name personName => personName
  | .identified _ personName => personName

/-- The id under which an identity is stored; a name without an id is one itself. -/
def PersonAttributionKey.storedId (nameToEmpId : String → Option String) :
    PersonAttributionKey → String
  | .name personName => ((nameToEmpId personName).filter (· ≠ "")).getD personName
  | .identified odooId _ => toString odooId

structure SnapshotRow where
  day : ℤ
  empId : String
  name : String
  wcName : String
  totals : DayCredit
  deriving DecidableEq

/-- The columns that no two rows of the table share. -/
def SnapshotRow.key (row : SnapshotRow) : ℤ × String × String := (row.day, row.empId, row.wcName)

/-- Units, or time that is qualified. -/
def DayCredit.Counts (totals : DayCredit) : Prop :=
  ¬(totals.units ≤ 0 ∧ (totals.hours ≤ 0 ∨ totals.daysWorked ≤ 0))

instance (totals : DayCredit) : Decidable totals.Counts :=
  inferInstanceAs (Decidable (¬(_ ∧ _)))

/-- The identities and work centers of an attribution, with what they are credited. -/
def SegmentAttribution.credited (attribution : SegmentAttribution) :
    List (PersonAttributionKey × String × DayCredit) :=
  attribution.entries.flatMap fun person => person.2.entries.map fun center => (person.1, center)

def snapshotRow (day : ℤ) (nameToEmpId : String → Option String)
    (entry : PersonAttributionKey × String × DayCredit) : SnapshotRow where
  day := day
  empId := entry.1.storedId nameToEmpId
  name := entry.1.displayName
  wcName := entry.2.1
  totals := entry.2.2

def flattenAttribution (day : ℤ) (attribution : SegmentAttribution)
    (nameToEmpId : String → Option String) : Except String (List SnapshotRow) :=
  if ∃ person ∈ attribution.keys, ¬person.WellFormed then
    .error "strict attribution identity is malformed"
  else .ok ((attribution.credited.filter fun entry => entry.2.2.Counts).map
    (snapshotRow day nameToEmpId))

/-! ## What is attributed -/

namespace SegmentAttribution

theorem mem_credited {attribution : SegmentAttribution} {person : PersonAttributionKey}
    {wcName : String} {totals : DayCredit} :
    (person, wcName, totals) ∈ attribution.credited ↔
      attribution.find person wcName = some totals := by
  rw [credited, find, List.mem_flatMap, Option.bind_eq_some_iff]
  constructor
  · rintro ⟨entry, member, inside⟩
    obtain ⟨center, stored, same⟩ := List.mem_map.mp inside
    obtain ⟨rfl, rfl⟩ := Prod.mk.inj same
    exact ⟨entry.2, Dictionary.get_eq_some_iff.mpr member, Dictionary.get_eq_some_iff.mpr stored⟩
  · rintro ⟨wcMap, member, stored⟩
    exact ⟨(person, wcMap), Dictionary.get_eq_some_iff.mp member,
      List.mem_map.mpr ⟨(wcName, totals), Dictionary.get_eq_some_iff.mp stored, rfl⟩⟩

/-- An identity and a work center are credited once. -/
theorem nodup_credited (attribution : SegmentAttribution) :
    (attribution.credited.map fun entry => (entry.1, entry.2.1)).Nodup := by
  rw [credited, List.map_flatMap, List.nodup_flatMap]
  constructor
  · intro person _
    rw [List.map_map]
    have centers := (Dictionary.nodup_keys person.2).map (Prod.mk_right_injective person.1)
    rw [Dictionary.keys, List.map_map] at centers
    exact centers
  · refine (List.pairwise_map.mp attribution.distinct).imp fun {first second} different => ?_
    intro both one two
    obtain ⟨_, stored, rfl⟩ := List.mem_map.mp one
    obtain ⟨_, inside, rfl⟩ := List.mem_map.mp stored
    obtain ⟨_, other, same⟩ := List.mem_map.mp two
    obtain ⟨_, later, rfl⟩ := List.mem_map.mp other
    exact different (congrArg Prod.fst same).symm

end SegmentAttribution

def SegmentCredit.Counts (credit : SegmentCredit T) : Prop :=
  ¬(credit.productiveMinutes ≤ 0 ∧ credit.actualUnits ≤ 0)

/-- Units and time that are not negative, one of them positive, on one day. -/
structure DayCredit.Positive (totals : DayCredit) : Prop where
  units : 0 ≤ totals.units
  hours : 0 ≤ totals.hours
  either : 0 < totals.units ∨ 0 < totals.hours
  day : totals.daysWorked = 1

theorem DayCredit.Positive.counts {totals : DayCredit} (positive : totals.Positive) :
    totals.Counts := by
  rintro ⟨noUnits, noTime⟩
  rw [positive.day] at noTime
  rcases positive.either with units | hours
  · exact absurd units (not_lt.mpr noUnits)
  · rcases noTime with none | noDay
    · exact absurd hours (not_lt.mpr none)
    · exact absurd noDay (by norm_num)

/-- The attribution has an entry for each identity and work center of the credits that count. -/
structure Recorded (seen : List (String × SegmentCredit T)) (out : SegmentAttribution) : Prop where
  found : ∀ person wcName, (out.find person wcName).isSome ↔
    ∃ entry ∈ seen, entry.1 = wcName ∧ entry.2.attributionKey = some person ∧ entry.2.Counts
  positive : ∀ person wcName totals, out.find person wcName = some totals → totals.Positive
  keys : ∀ person ∈ out.keys, ∃ wcName, (out.find person wcName).isSome

omit [LinearOrder T] in
theorem recorded_empty : Recorded ([] : List (String × SegmentCredit T)) ∅ where
  found person wcName := by simp [SegmentAttribution.find]
  positive person wcName totals found := by simp [SegmentAttribution.find] at found
  keys person member := by simp at member

variable {input : AttributionInput T}

omit [LinearOrder T] in
theorem Recorded.addCredit {seen : List (String × SegmentCredit T)} {out : SegmentAttribution}
    (recorded : Recorded seen out) (wcName : String) {credit : SegmentCredit T}
    (nonneg : credit.personName ≠ none → 0 ≤ credit.productiveMinutes ∧ 0 ≤ credit.actualUnits) :
    Recorded ((wcName, credit) :: seen) (addCredit input wcName out credit) := by
  have passed : (∀ person, ¬(credit.attributionKey = some person ∧ credit.Counts)) →
      Recorded ((wcName, credit) :: seen) out := by
    intro nobody
    refine ⟨fun person other => ?_, recorded.positive, recorded.keys⟩
    rw [recorded.found, List.exists_mem_cons_iff]
    exact (or_iff_right fun first => nobody person first.2).symm
  unfold Production.addCredit
  cases key : credit.attributionKey with
  | none => exact passed fun person both => by rw [key] at both; cases both.1
  | some person =>
      dsimp only
      split
      · next empty => exact passed fun _ both => both.2 empty
      · next counts =>
          obtain ⟨minutes, units⟩ := nonneg fun unnamed => by
            rw [SegmentCredit.attributionKey, unnamed] at key
            cases key
          set change := fun stored : Option DayCredit =>
            let totals := stored.getD
              ⟨0, 0, 0, 1, ((input.excludedMinutes.get person).bind (·.get wcName)).getD 0⟩
            { totals with
              units := totals.units + credit.actualUnits
              hours := totals.hours + credit.productiveMinutes / 60 } with isChange
          have find : ∀ other center, SegmentAttribution.find
              (out.alter person fun wcMap => (wcMap.getD ∅).alter wcName change) other center =
                if other = person ∧ center = wcName then some (change (out.find person wcName))
                else out.find other center :=
            Dictionary.bind_get_alter_alter out person wcName change
          refine ⟨?_, ?_, ?_⟩
          · intro other center
            rw [find, List.exists_mem_cons_iff, key, Option.some.injEq, ← recorded.found]
            split
            · next same => exact ⟨fun _ => .inl ⟨same.2.symm, same.1.symm, counts⟩, fun _ => rfl⟩
            · next different =>
                exact (or_iff_right fun first => different ⟨first.2.1.symm, first.1.symm⟩).symm
          · intro other center totals stored
            rw [find] at stored
            split at stored
            · obtain rfl := Option.some.inj stored
              have hours : 0 ≤ credit.productiveMinutes / 60 :=
                div_nonneg minutes (by norm_num)
              have either : 0 < credit.actualUnits ∨ 0 < credit.productiveMinutes / 60 := by
                by_contra none
                rw [not_or, not_lt, not_lt] at none
                refine counts ⟨?_, none.1⟩
                linarith [none.2]
              cases before : out.find person wcName with
              | none =>
                  simp only [isChange, Option.getD_none, zero_add]
                  exact ⟨units, hours, either, rfl⟩
              | some stored =>
                  have positive := recorded.positive person wcName stored before
                  refine ⟨add_nonneg positive.units units, add_nonneg positive.hours hours, ?_,
                    positive.day⟩
                  exact either.imp (add_pos_of_nonneg_of_pos positive.units)
                    (add_pos_of_nonneg_of_pos positive.hours)
            · exact recorded.positive other center totals stored
          · intro other member
            rcases Dictionary.mem_keys_alter.mp member with rfl | old
            · exact ⟨wcName, by rw [find, if_pos ⟨rfl, rfl⟩]; rfl⟩
            · obtain ⟨center, present⟩ := recorded.keys other old
              refine ⟨center, ?_⟩
              rw [find]
              split
              · rfl
              · exact present

/-- In strict mode no named credit is negative. -/
theorem credit_nonneg (strict : input.strict) {wcName : String} {credit : SegmentCredit T}
    (member : credit ∈ ((creditWorkSegments input.creditInput).get wcName).getD [])
    (named : credit.personName ≠ none) :
    0 ≤ credit.productiveMinutes ∧ 0 ≤ credit.actualUnits := by
  have conserved := creditWorkSegments_conserved input.creditInput wcName
  constructor
  · have worker := conserved.workers.subset (List.mem_map_of_mem
      (List.mem_filter.mpr ⟨member, decide_eq_true named⟩))
    obtain ⟨segment, -, same⟩ := List.mem_map.mp worker
    simp only [Prod.mk.injEq] at same
    rw [← same.2.2.2.2.2]
    exact le_max_left _ _
  · have nothing : input.creditInput.remainder wcName = 0 := by
      rw [CreditInput.remainder, if_neg]
      simp [AttributionInput.creditInput, strict]
    have spread : input.creditInput.spread wcName 0 credit.productiveMinutes = 0 := by
      simp [CreditInput.spread]
    rw [conserved.sampled credit member named, nothing, spread, add_zero]
    refine List.sum_nonneg fun units inside => ?_
    obtain ⟨point, shared, rfl⟩ := List.mem_map.mp inside
    obtain ⟨personName, isName⟩ := Option.ne_none_iff_exists'.mp named
    have key : credit.attributionKey = some (attributionKeyOf credit.personOdooId personName) := by
      rw [SegmentCredit.attributionKey, isName, Option.map_some]
    have counted := (conserved.shares _).subset (List.mem_flatMap.mpr
      ⟨credit, List.mem_filter.mpr ⟨member, decide_eq_true key⟩, shared⟩)
    obtain ⟨reading, creditable, rfl⟩ := List.mem_map.mp counted
    have reading_mem := List.mem_of_mem_filter (List.mem_of_mem_filter creditable)
    obtain ⟨sample, -, same⟩ := List.mem_filterMap.mp reading_mem
    split at same
    · next positive =>
        cases same
        exact div_nonneg positive.le (Nat.cast_nonneg _)
    · cases same

/-- The credits of all work centers, each with the name of its center. -/
def AttributionInput.credits (input : AttributionInput T) : List (String × SegmentCredit T) :=
  (creditWorkSegments input.creditInput).entries.flatMap fun center =>
    center.2.map fun credit => (center.1, credit)

theorem recorded_credits (strict : input.strict) :
    Recorded input.credits.reverse ((creditWorkSegments input.creditInput).entries.foldl
      (fun out center => center.2.foldl (addCredit input center.1) out) ∅) := by
  have flat : (creditWorkSegments input.creditInput).entries.foldl
      (fun out center => center.2.foldl (addCredit input center.1) out) ∅ =
        input.credits.foldl (fun out entry => addCredit input entry.1 out entry.2) ∅ := by
    rw [AttributionInput.credits, List.foldl_flatMap]
    simp only [List.foldl_map]
  have nonneg : ∀ entry ∈ input.credits, entry.2.personName ≠ none →
      0 ≤ entry.2.productiveMinutes ∧ 0 ≤ entry.2.actualUnits := by
    intro entry member
    obtain ⟨center, stored, inside⟩ := List.mem_flatMap.mp member
    obtain ⟨credit, listed, rfl⟩ := List.mem_map.mp inside
    refine @credit_nonneg T _ input strict center.1 credit ?_
    rw [Dictionary.get_eq_some_iff.mpr stored, Option.getD_some]
    exact listed
  rw [flat]
  have run : ∀ (rest seen : List (String × SegmentCredit T)) (out : SegmentAttribution),
      (∀ entry ∈ rest, entry.2.personName ≠ none →
        0 ≤ entry.2.productiveMinutes ∧ 0 ≤ entry.2.actualUnits) → Recorded seen out →
      Recorded (rest.reverse ++ seen)
        (rest.foldl (fun out entry => addCredit input entry.1 out entry.2) out) := by
    intro rest
    induction rest with
    | nil => exact fun _ _ _ recorded => recorded
    | cons entry rest ih =>
        intro seen out nonneg recorded
        obtain ⟨head, later⟩ := List.forall_mem_cons.mp nonneg
        rw [List.foldl_cons, List.reverse_cons, List.append_assoc]
        exact ih _ _ later (recorded.addCredit entry.1 head)
  simpa only [List.append_nil] using run input.credits [] ∅ nonneg recorded_empty

theorem find_shareDowntime (out : SegmentAttribution) (entry : String × ℚ × ℚ)
    (person : PersonAttributionKey) (wcName : String) :
    ∃ added : DayCredit → ℚ, SegmentAttribution.find (shareDowntime out entry) person wcName =
      (out.find person wcName).map fun totals => { totals with downtime := added totals } := by
  unfold shareDowntime
  dsimp only
  split
  · exact ⟨DayCredit.downtime, by simp⟩
  · generalize ((out.values.filterMap (·.get entry.1)).map DayCredit.hours).sum = totalHours
    by_cases same : wcName = entry.1
    · refine ⟨fun totals => totals.downtime + entry.2.2 * totals.hours / totalHours, ?_⟩
      rw [SegmentAttribution.find, Dictionary.get_mapValues, SegmentAttribution.find]
      cases out.get person with
      | none => rfl
      | some wcMap =>
          rw [Option.map_some, Option.bind_some, Dictionary.get_modify, if_pos same,
            Option.bind_some]
    · refine ⟨DayCredit.downtime, ?_⟩
      rw [SegmentAttribution.find, Dictionary.get_mapValues, SegmentAttribution.find]
      cases out.get person with
      | none => rfl
      | some wcMap =>
          rw [Option.map_some, Option.bind_some, Dictionary.get_modify, if_neg same,
            Option.bind_some]
          simp

theorem keys_shareDowntime (out : SegmentAttribution) (entry : String × ℚ × ℚ) :
    (shareDowntime out entry).keys = out.keys := by
  unfold shareDowntime
  dsimp only
  split
  · rfl
  · rw [Dictionary.keys, Dictionary.mapValues, List.map_map]
    rfl

omit [LinearOrder T] in
/-- Dividing the downtime leaves the entries with their units and hours. -/
theorem Recorded.shareDowntime {seen : List (String × SegmentCredit T)} {out : SegmentAttribution}
    (recorded : Recorded seen out) (entry : String × ℚ × ℚ) :
    Recorded seen (shareDowntime out entry) where
  found person wcName := by
    obtain ⟨added, same⟩ := find_shareDowntime out entry person wcName
    rw [same, Option.isSome_map, recorded.found]
  positive person wcName totals found := by
    obtain ⟨added, same⟩ := find_shareDowntime out entry person wcName
    rw [same, Option.map_eq_some_iff] at found
    obtain ⟨before, stored, rfl⟩ := found
    have positive := recorded.positive person wcName before stored
    exact ⟨positive.units, positive.hours, positive.either, positive.day⟩
  keys person member := by
    rw [keys_shareDowntime] at member
    obtain ⟨wcName, present⟩ := recorded.keys person member
    obtain ⟨added, same⟩ := find_shareDowntime out entry person wcName
    exact ⟨wcName, by rw [same, Option.isSome_map]; exact present⟩

/-- In strict mode the attribution has an entry for each credit that counts, and no others. -/
theorem recorded_attributeForSegments (strict : input.strict) {out : SegmentAttribution}
    (returned : attributeForSegments input = .ok out) : Recorded input.credits.reverse out := by
  unfold attributeForSegments at returned
  dsimp only at returned
  split at returned
  · cases returned
  · obtain rfl := Except.ok.inj returned
    generalize input.wcTotals.entries = entries
    have recorded := recorded_credits strict
    revert recorded
    generalize (creditWorkSegments input.creditInput).entries.foldl
      (fun out center => center.2.foldl (Production.addCredit input center.1) out) ∅ = start
    intro recorded
    induction entries generalizing start with
    | nil => exact recorded
    | cons entry rest ih => exact ih _ (recorded.shareDowntime entry)

/-! ## The rows can be stored -/

/-- What the rows of a work center add up to. -/
def rowsAt (amount : DayCredit → ℚ) (wcName : String) (rows : List SnapshotRow) : ℚ :=
  ((rows.filter fun row => row.wcName = wcName).map fun row => amount row.totals).sum

/-- What the entries of a work center with units or qualified time add up to. -/
def SegmentAttribution.countedAt (amount : DayCredit → ℚ) (wcName : String)
    (attribution : SegmentAttribution) : ℚ :=
  ((attribution.credited.filter fun entry => entry.2.1 = wcName ∧ entry.2.2.Counts).map fun entry =>
    amount entry.2.2).sum

/-- The rows have distinct keys, and the units, hours and excluded minutes of every work center. -/
structure Storable (attribution : SegmentAttribution) (rows : List SnapshotRow) : Prop where
  distinct : (rows.map SnapshotRow.key).Nodup
  units : ∀ wcName, rowsAt DayCredit.units wcName rows = attribution.countedAt DayCredit.units wcName
  hours : ∀ wcName, rowsAt DayCredit.hours wcName rows = attribution.countedAt DayCredit.hours wcName
  excluded : ∀ wcName, rowsAt DayCredit.excludedMinutes wcName rows =
    attribution.countedAt DayCredit.excludedMinutes wcName

theorem rowsAt_snapshotRow (amount : DayCredit → ℚ) (wcName : String) (day : ℤ)
    (nameToEmpId : String → Option String) (attribution : SegmentAttribution) :
    rowsAt amount wcName ((attribution.credited.filter fun entry => entry.2.2.Counts).map
      (snapshotRow day nameToEmpId)) = attribution.countedAt amount wcName := by
  rw [rowsAt, List.filter_map, List.map_map, List.filter_filter, SegmentAttribution.countedAt]
  simp only [Function.comp_def, snapshotRow, Bool.decide_and]
  rfl

/-- No two identities that count at one work center are stored under one id. -/
def OneIdEach (nameToEmpId : String → Option String) (input : AttributionInput T) : Prop :=
  ∀ first ∈ input.credits, first.2.Counts → ∀ second ∈ input.credits, second.2.Counts →
    first.1 = second.1 → ∀ person, first.2.attributionKey = some person →
      ∀ other, second.2.attributionKey = some other →
        person.storedId nameToEmpId = other.storedId nameToEmpId → person = other

section

variable {out : SegmentAttribution} (recorded : Recorded input.credits.reverse out)
  (nameToEmpId : String → Option String)

include recorded

theorem exists_credited_iff (person : PersonAttributionKey) (wcName : String) :
    (∃ totals, (person, wcName, totals) ∈ out.credited) ↔
      ∃ entry ∈ input.credits, entry.1 = wcName ∧ entry.2.attributionKey = some person ∧
        entry.2.Counts := by
  simp only [SegmentAttribution.mem_credited, ← Option.isSome_iff_exists, recorded.found,
    List.mem_reverse]

/-- The keys of the rows are distinct when the ids of a work center are. -/
theorem nodup_rowKeys_iff (day : ℤ) :
    ((out.credited.map (snapshotRow day nameToEmpId)).map SnapshotRow.key).Nodup ↔
      OneIdEach nameToEmpId input := by
  have pairs : (out.credited.map (snapshotRow day nameToEmpId)).map SnapshotRow.key =
      (out.credited.map fun entry => (entry.1, entry.2.1)).map fun pair =>
        (day, pair.1.storedId nameToEmpId, pair.2) := by
    rw [List.map_map, List.map_map]
    rfl
  rw [pairs, List.nodup_map_iff_inj_on out.nodup_credited]
  constructor
  · intro injective first inFirst firstCounts second inSecond secondCounts center person isPerson
      other isOther sameId
    obtain ⟨totals, one⟩ := (exists_credited_iff recorded person first.1).mpr
      ⟨first, inFirst, rfl, isPerson, firstCounts⟩
    obtain ⟨otherTotals, two⟩ := (exists_credited_iff recorded other second.1).mpr
      ⟨second, inSecond, rfl, isOther, secondCounts⟩
    have same := injective (person, first.1) (List.mem_map_of_mem one) (other, second.1)
      (List.mem_map_of_mem two) (by rw [sameId, center])
    exact congrArg Prod.fst same
  · intro oneEach first inFirst second inSecond same
    obtain ⟨⟨person, wcName, totals⟩, one, rfl⟩ := List.mem_map.mp inFirst
    obtain ⟨⟨other, center, otherTotals⟩, two, rfl⟩ := List.mem_map.mp inSecond
    simp only [Prod.mk.injEq, true_and] at same
    obtain ⟨entry, inside, atCenter, isPerson, counts⟩ :=
      (exists_credited_iff recorded person wcName).mp ⟨totals, one⟩
    obtain ⟨later, also, atOther, isOther, laterCounts⟩ :=
      (exists_credited_iff recorded other center).mp ⟨otherTotals, two⟩
    have samePerson := oneEach entry inside counts later also laterCounts
      (atCenter.trans (same.2.trans atOther.symm)) person isPerson other isOther same.1
    exact Prod.ext samePerson same.2

theorem keys_wellFormed_iff :
    (¬∃ person ∈ out.keys, ¬person.WellFormed) ↔
      ∀ entry ∈ input.credits, entry.2.Counts → ∀ person,
        entry.2.attributionKey = some person → person.WellFormed := by
  constructor
  · intro none entry inside counts person isPerson
    by_contra malformed
    obtain ⟨totals, member⟩ := (exists_credited_iff recorded person entry.1).mpr
      ⟨entry, inside, rfl, isPerson, counts⟩
    obtain ⟨wcMap, stored, -⟩ :=
      Option.bind_eq_some_iff.mp (SegmentAttribution.mem_credited.mp member)
    exact none ⟨person, Dictionary.mem_keys_iff.mpr ⟨wcMap, stored⟩, malformed⟩
  · rintro all ⟨person, member, malformed⟩
    obtain ⟨wcName, present⟩ := recorded.keys person member
    obtain ⟨entry, inside, -, isPerson, counts⟩ := (recorded.found person wcName).mp present
    exact malformed (all entry (List.mem_reverse.mp inside) counts person isPerson)

end

/-- The snapshot of a strict day can be stored if and only if its identities are well formed and
those of one work center have different ids. -/
theorem flattenAttribution_storable_iff (input : AttributionInput T) (strict : input.strict)
    {out : SegmentAttribution} (returned : attributeForSegments input = .ok out) (day : ℤ)
    (nameToEmpId : String → Option String) :
    (∃ rows, flattenAttribution day out nameToEmpId = .ok rows ∧ Storable out rows) ↔
      (∀ entry ∈ input.credits, entry.2.Counts → ∀ person,
        entry.2.attributionKey = some person → person.WellFormed) ∧
        OneIdEach nameToEmpId input := by
  have recorded := recorded_attributeForSegments strict returned
  have all : out.credited.filter (fun entry => entry.2.2.Counts) = out.credited :=
    List.filter_eq_self.mpr fun entry member => decide_eq_true
      (recorded.positive _ _ _ (SegmentAttribution.mem_credited.mp member)).counts
  rw [← keys_wellFormed_iff recorded, ← nodup_rowKeys_iff recorded nameToEmpId day]
  unfold flattenAttribution
  constructor
  · rintro ⟨rows, flattened, storable⟩
    split at flattened
    · cases flattened
    · next none =>
        obtain rfl := Except.ok.inj flattened
        refine ⟨none, ?_⟩
        rw [← all]
        exact storable.distinct
  · rintro ⟨none, distinct⟩
    rw [if_neg none]
    refine ⟨_, rfl, ?_, ?_, ?_, ?_⟩
    · rwa [all]
    · exact fun wcName => rowsAt_snapshotRow _ wcName day nameToEmpId out
    · exact fun wcName => rowsAt_snapshotRow _ wcName day nameToEmpId out
    · exact fun wcName => rowsAt_snapshotRow _ wcName day nameToEmpId out

/-- One employee at a work center for two hours, under a name for each of them. -/
def renamedDay (later : String) : AttributionInput ℤ where
  segments := [⟨"Repair 1", "Ana", 0, 60, "punch", some 7⟩,
    ⟨"Repair 1", later, 60, 120, "punch", some 7⟩]
  wcTotals := Dictionary.ofItems Prod.fst Prod.snd [("Repair 1", 10, 0)]
  samplesByWc := Dictionary.ofItems Prod.fst Prod.snd [("Repair 1", [(30, 4), (90, 6)])]
  productiveMinutes _ _ start stop := stop - start
  excludedMinutes := ∅
  strict := true

/-- The day under one name is stored. -/
theorem oneName_storable :
    ∃ out, attributeForSegments (renamedDay "Ana") = .ok out ∧
      ∃ rows, flattenAttribution 0 out (fun _ => none) = .ok rows ∧ Storable out rows := by
  have some : (attributeForSegments (renamedDay "Ana")).toOption.isSome := by decide +kernel
  obtain ⟨out, found⟩ := Option.isSome_iff_exists.mp some
  have returned := Checks.eq_ok_of_toOption found
  have ana : ∀ entry ∈ (renamedDay "Ana").credits,
      entry.2.attributionKey = .some (.identified 7 "Ana") := by decide +kernel
  refine ⟨out, returned, (flattenAttribution_storable_iff (renamedDay "Ana") rfl returned 0
    fun _ => none).mpr ⟨?_, ?_⟩⟩
  · intro entry member _ person isPerson
    obtain rfl := Option.some.inj ((ana entry member).symm.trans isPerson)
    exact ⟨by decide, by decide⟩
  · intro first inFirst _ second inSecond _ _ person isPerson other isOther _
    have one := Option.some.inj ((ana first inFirst).symm.trans isPerson)
    exact one.symm.trans (Option.some.inj ((ana second inSecond).symm.trans isOther))

/-- Under two names the two rows have one key. -/
theorem twoNames_notStorable :
    ∃ out, attributeForSegments (renamedDay "Ana Lopez") = .ok out ∧
      ¬∃ rows, flattenAttribution 0 out (fun _ => none) = .ok rows ∧ Storable out rows := by
  have keys : ((attributeForSegments (renamedDay "Ana Lopez")).toOption.map fun out =>
      (flattenAttribution 0 out fun _ => none).toOption.map fun rows =>
        rows.map SnapshotRow.key) =
      some (some [(0, "7", "Repair 1"), (0, "7", "Repair 1")]) := by decide +kernel
  obtain ⟨out, found, keys⟩ := Option.map_eq_some_iff.mp keys
  refine ⟨out, Checks.eq_ok_of_toOption found, ?_⟩
  rintro ⟨rows, flattened, storable⟩
  rw [flattened] at keys
  have same : rows.map SnapshotRow.key = [(0, "7", "Repair 1"), (0, "7", "Repair 1")] :=
    Option.some.inj keys
  have distinct := storable.distinct
  rw [same] at distinct
  exact absurd distinct (by decide)

end PlantManager.Production

import PlantManager.Production.Credit

/-! # Crediting neither loses nor invents units

`Production.creditWorkSegments_conserved` accounts for the units of every work
center: the samples before the live cap and the remainder of the total are all credited,
a covered sample is shared equally by the identities at work, and the unassigned row holds
what nobody covers.
-/

namespace PlantManager.Production

open PlantManager.Mapping PlantManager.Ranking

variable {T : Type*} [LinearOrder T]

/-! ## What a center is owed -/

/-- The positive readings among the samples. -/
def positive (samples : List (T × Option ℚ)) : List (T × ℚ) :=
  samples.filterMap fun sample =>
    if 0 < sample.2.getD 0 then some (sample.1, sample.2.getD 0) else none

/-- The positive readings before the live cap. -/
def beforeCap (liveCap : Option T) (readings : List (T × ℚ)) : List (T × ℚ) :=
  readings.filter fun reading => ¬BeyondCap liveCap reading.1

def unitsOf (readings : List (T × ℚ)) : ℚ := (readings.map Prod.snd).sum

namespace CreditInput

variable (input : CreditInput T) (wcName : String)

/-- The positive samples of a center. -/
def readings : List (T × ℚ) := positive ((input.samplesByWc.get wcName).getD [])

/-- The positive samples of a center before the live cap. -/
def creditable : List (T × ℚ) := beforeCap input.liveCap (input.readings wcName)

/-- The identities at work at a center at a moment. -/
def identitiesAt (moment : T) : Finset PersonAttributionKey :=
  ((input.segments.filter fun segment => segment.wcName = wcName ∧ segment.Covers moment).map
    WorkSegment.attributionKey).toFinset

/-- The productive minutes of the segments at a center. -/
def minutesAt : ℚ :=
  ((input.segments.filter fun segment => segment.wcName = wcName).map fun segment =>
    max 0 (input.minutes segment)).sum

/-- The part of a center's total that its samples do not reach. -/
def remainder : ℚ :=
  if input.allowTotalFallback then
    match input.wcTotals.get wcName with
    | none => 0
    | some total => max 0 (total.getD 0 - unitsOf (input.readings wcName))
  else 0

/-- The part of a remainder that goes with some productive minutes at a center. -/
def spread (remaining minutes : ℚ) : ℚ :=
  if input.minutesAt wcName = 0 then 0 else remaining * minutes / input.minutesAt wcName

end CreditInput

/-- The units of a center are all credited, once, to those they belong to. -/
structure UnitsConserved (input : CreditInput T) (wcName : String)
    (credits : List (SegmentCredit T)) : Prop where
  /-- Nothing is lost and nothing invented. -/
  total : (credits.map SegmentCredit.actualUnits).sum =
    unitsOf (input.creditable wcName) + input.remainder wcName
  /-- The named credits are those of the segments at the center. -/
  workers : ((credits.filter fun credit => credit.personName ≠ none).map fun credit =>
      (credit.personName, credit.personOdooId, credit.start, credit.stop, credit.source,
        credit.productiveMinutes)).Perm
    ((input.segments.filter fun segment => segment.wcName = wcName).map fun segment =>
      (some segment.personName, segment.personOdooId, some segment.start, some segment.stop,
        segment.source, max 0 (input.minutes segment)))
  /-- An identity gets one equal share of each sample it is at work for. -/
  shares : ∀ identity, ((credits.filter fun credit =>
      credit.attributionKey = some identity).flatMap SegmentCredit.unitPoints).Perm
    (((input.creditable wcName).filter fun reading =>
      identity ∈ input.identitiesAt wcName reading.1).map fun reading =>
        ⟨reading.1, reading.2 / (input.identitiesAt wcName reading.1).card⟩)
  /-- The unit points of a named credit add up to its part of the samples. -/
  sampled : ∀ credit ∈ credits, credit.personName ≠ none →
    credit.actualUnits = (credit.unitPoints.map CreditedUnitPoint.units).sum +
      input.spread wcName (input.remainder wcName) credit.productiveMinutes
  /-- The unassigned row holds the uncovered samples, and the remainder when there are no
  productive minutes. -/
  unassigned : ((credits.filter fun credit => credit.personName = none).map
      SegmentCredit.actualUnits).sum =
    unitsOf ((input.creditable wcName).filter fun reading =>
        input.identitiesAt wcName reading.1 = ∅) +
      if input.minutesAt wcName = 0 then input.remainder wcName else 0
  oneUnassigned : (credits.filter fun credit => credit.personName = none).length ≤ 1

/-! ## Who is at work -/

variable {rows : List (WorkerRow T)}

omit [LinearOrder T] in
theorem mem_indicesByWc {wcName : String} {index : ℕ} :
    index ∈ indicesByWc rows wcName ↔
      ∃ row, rows[index]? = some row ∧ row.segment.wcName = wcName := by
  rw [indicesByWc, List.mem_filter, List.mem_range]
  constructor
  · rintro ⟨inside, atCenter⟩
    refine ⟨rows[index], List.getElem?_eq_getElem inside, ?_⟩
    rw [List.getElem?_eq_getElem inside] at atCenter
    simpa using atCenter
  · rintro ⟨row, found, atCenter⟩
    refine ⟨(List.getElem?_eq_some_iff.mp found).1, ?_⟩
    rw [found]
    simpa using atCenter

omit [LinearOrder T] in
theorem nodup_indicesByWc (rows : List (WorkerRow T)) (wcName : String) :
    (indicesByWc rows wcName).Nodup := List.nodup_range.filter _

variable {active : Dictionary PersonAttributionKey ℕ} {identity : PersonAttributionKey}

theorem mem_entries_foldl_noteActive {moment : T} {indices : List ℕ}
    {entry : PersonAttributionKey × ℕ}
    (member : entry ∈ (indices.foldl (noteActive rows moment) active).entries) :
    entry ∈ active.entries ∨ entry.2 ∈ indices ∧
      ∃ row, rows[entry.2]? = some row ∧ row.segment.attributionKey = entry.1 := by
  induction indices generalizing active with
  | nil => exact Or.inl member
  | cons index rest ih =>
      rcases ih member with earlier | ⟨later, row⟩
      · rw [noteActive] at earlier
        split at earlier
        · exact Or.inl earlier
        · rename_i row found
          split at earlier
          · rcases Dictionary.mem_entries_setDefault earlier with old | rfl
            · exact Or.inl old
            · exact Or.inr ⟨List.mem_cons_self, row, found, rfl⟩
          · exact Or.inl earlier
      · exact Or.inr ⟨List.mem_cons_of_mem _ later, row⟩

theorem mem_keys_foldl_noteActive {moment : T} {indices : List ℕ} :
    identity ∈ (indices.foldl (noteActive rows moment) active).keys ↔
      identity ∈ active.keys ∨ ∃ index ∈ indices, ∃ row, rows[index]? = some row ∧
        row.segment.Covers moment ∧ row.segment.attributionKey = identity := by
  induction indices generalizing active with
  | nil => simp
  | cons index rest ih =>
      have step : identity ∈ (noteActive rows moment active index).keys ↔
          identity ∈ active.keys ∨ ∃ row, rows[index]? = some row ∧
            row.segment.Covers moment ∧ row.segment.attributionKey = identity := by
        rw [noteActive]
        split
        · rename_i absent
          simp [absent]
        · rename_i row found
          split
          · rename_i covers
            rw [Dictionary.setDefault, Dictionary.mem_keys_alter, or_comm]
            simp [found, covers, eq_comm]
          · rename_i outside
            simp [found, outside]
      rw [List.foldl_cons, ih, step, or_assoc]
      simp only [List.mem_cons, exists_eq_or_imp]

/-- The people counted for a sample are the identities at work. -/
theorem toFinset_keys_activeByPerson {input : CreditInput T}
    (segments : (rows.map WorkerRow.segment).Perm input.segments) (wcName : String) (moment : T) :
    (activeByPerson rows wcName moment).keys.toFinset = input.identitiesAt wcName moment := by
  ext identity
  rw [List.mem_toFinset, activeByPerson, mem_keys_foldl_noteActive, CreditInput.identitiesAt,
    List.mem_toFinset, List.mem_map]
  simp only [Dictionary.keys_empty, List.not_mem_nil, false_or, mem_indicesByWc, List.mem_filter,
    decide_eq_true_eq]
  constructor
  · rintro ⟨index, ⟨other, found, atCenter⟩, row, sameRow, covers, identified⟩
    obtain rfl : row = other := Option.some.inj (sameRow.symm.trans found)
    exact ⟨row.segment, ⟨segments.mem_iff.mp
      (List.mem_map_of_mem (List.mem_of_getElem? found)), atCenter, covers⟩, identified⟩
  · rintro ⟨segment, ⟨member, atCenter, covers⟩, identified⟩
    obtain ⟨row, inRows, rfl⟩ := List.mem_map.mp (segments.mem_iff.mpr member)
    obtain ⟨index, found⟩ := List.mem_iff_getElem?.mp inRows
    exact ⟨index, ⟨row, found, atCenter⟩, row, found, covers, identified⟩

theorem mem_keys_activeByPerson {input : CreditInput T}
    (segments : (rows.map WorkerRow.segment).Perm input.segments) {wcName : String} {moment : T} :
    identity ∈ (activeByPerson rows wcName moment).keys ↔
      identity ∈ input.identitiesAt wcName moment := by
  rw [← toFinset_keys_activeByPerson segments, List.mem_toFinset]

theorem card_identitiesAt {input : CreditInput T}
    (segments : (rows.map WorkerRow.segment).Perm input.segments) (wcName : String) (moment : T) :
    (activeByPerson rows wcName moment).values.length =
      (input.identitiesAt wcName moment).card := by
  rw [← toFinset_keys_activeByPerson segments, Dictionary.length_values,
    List.toFinset_card_of_nodup (Dictionary.nodup_keys _)]

/-- Over the active rows, what depends on the center and the identity is counted once. -/
theorem sum_activeByPerson {M : Type*} [AddCommMonoid M] (rows : List (WorkerRow T))
    (wcName : String) (moment : T) (added : WorkerRow T → M)
    (amount : PersonAttributionKey → M)
    (depends : ∀ row, row.segment.wcName = wcName → added row = amount row.segment.attributionKey) :
    (((activeByPerson rows wcName moment).values).map fun index =>
        (rows[index]?).elim 0 added).sum =
      ((activeByPerson rows wcName moment).keys.map amount).sum := by
  rw [Dictionary.values, Dictionary.keys, List.map_map, List.map_map]
  congr 1
  refine List.map_congr_left fun entry member => ?_
  rcases mem_entries_foldl_noteActive member with impossible | ⟨inside, row, found, identified⟩
  · exact absurd impossible List.not_mem_nil
  · obtain ⟨other, sameRow, atCenter⟩ := mem_indicesByWc.mp inside
    obtain rfl : row = other := Option.some.inj (found.symm.trans sameRow)
    simp only [Function.comp_apply, found, Option.elim_some, depends row atCenter, identified]

/-! ## Crediting the samples -/

/-- The points of a row, when the row is of a center and an identity. -/
def pointsOf (wcName : String) (identity : PersonAttributionKey) (row : WorkerRow T) :
    Multiset (CreditedUnitPoint T) :=
  if row.segment.wcName = wcName ∧ row.segment.attributionKey = identity then row.unitPoints else 0

omit [LinearOrder T] in
theorem pointsOf_addPoint (wcName : String) (identity : PersonAttributionKey) (moment : T)
    (share : ℚ) (row : WorkerRow T) :
    pointsOf wcName identity (row.addPoint moment share) = pointsOf wcName identity row +
      if row.segment.wcName = wcName ∧ row.segment.attributionKey = identity
        then {⟨moment, share⟩} else 0 := by
  change (if row.segment.wcName = wcName ∧ row.segment.attributionKey = identity
    then Multiset.ofList (row.unitPoints ++ [⟨moment, share⟩]) else 0) = _
  rw [pointsOf]
  split
  · rw [← Multiset.coe_add]
    rfl
  · rfl

/-- The equal share that a reading gives to each identity at work. -/
def CreditInput.sharePoint (input : CreditInput T) (wcName : String) (reading : T × ℚ) :
    CreditedUnitPoint T :=
  ⟨reading.1, reading.2 / (input.identitiesAt wcName reading.1).card⟩

/-- The state accounts for the positive readings seen at each center. -/
structure Credited (input : CreditInput T) (seen : String → List (T × ℚ))
    (state : Crediting T) : Prop where
  rows : (state.rows.map fun row => (row.segment, row.productiveMinutes)) =
    (orderedSegments input.segments).map fun segment => (segment, max 0 (input.minutes segment))
  sampledUnits : ∀ wcName, (state.sampledUnits.get wcName).getD 0 = unitsOf (seen wcName)
  worked : ∀ wcName,
    ((state.rows.filter fun row => row.segment.wcName = wcName).map WorkerRow.actualUnits).sum =
      unitsOf ((beforeCap input.liveCap (seen wcName)).filter fun reading =>
        input.identitiesAt wcName reading.1 ≠ ∅)
  shares : ∀ wcName identity, (state.rows.map (pointsOf wcName identity)).sum =
    (((beforeCap input.liveCap (seen wcName)).filter fun reading =>
      identity ∈ input.identitiesAt wcName reading.1).map (input.sharePoint wcName) :
        List (CreditedUnitPoint T))
  sampled : ∀ row ∈ state.rows,
    row.actualUnits = (row.unitPoints.map CreditedUnitPoint.units).sum
  uncovered : ∀ wcName, ((state.unassigned.get wcName).elim 0 Bucket.actualUnits) =
    unitsOf ((beforeCap input.liveCap (seen wcName)).filter fun reading =>
      input.identitiesAt wcName reading.1 = ∅)

omit [LinearOrder T] in
@[simp] theorem unitsOf_append (first second : List (T × ℚ)) :
    unitsOf (first ++ second) = unitsOf first + unitsOf second := by
  rw [unitsOf, List.map_append, List.sum_append]
  rfl

theorem beforeCap_append (liveCap : Option T) (first second : List (T × ℚ)) :
    beforeCap liveCap (first ++ second) = beforeCap liveCap first ++ beforeCap liveCap second :=
  List.filter_append ..

/-- The readings seen once some more are seen at a center. -/
def see (seen : String → List (T × ℚ)) (wcName : String) (readings : List (T × ℚ)) :
    String → List (T × ℚ) :=
  Function.update seen wcName (seen wcName ++ readings)

omit [LinearOrder T] in
theorem see_self (seen : String → List (T × ℚ)) (wcName : String) (readings : List (T × ℚ)) :
    see seen wcName readings wcName = seen wcName ++ readings := Function.update_self ..

omit [LinearOrder T] in
theorem see_of_ne {wcName other : String} (different : other ≠ wcName)
    (seen : String → List (T × ℚ)) (readings : List (T × ℚ)) :
    see seen wcName readings other = seen other := Function.update_of_ne different ..

omit [LinearOrder T] in
@[simp] theorem see_nil (seen : String → List (T × ℚ)) (wcName : String) :
    see seen wcName [] = seen := by
  rw [see, List.append_nil, Function.update_eq_self]

omit [LinearOrder T] in
theorem see_see (seen : String → List (T × ℚ)) (wcName : String) (first second : List (T × ℚ)) :
    see (see seen wcName first) wcName second = see seen wcName (first ++ second) := by
  rw [see, see_self, see, Function.update_idem, List.append_assoc, see]

namespace Credited

variable {input : CreditInput T} {seen : String → List (T × ℚ)} {state : Crediting T}

theorem segments (credited : Credited input seen state) :
    (state.rows.map WorkerRow.segment).Perm input.segments := by
  have segments := congrArg (List.map Prod.fst) credited.rows
  rw [List.map_map, List.map_map] at segments
  have same : state.rows.map WorkerRow.segment = (orderedSegments input.segments).map id := segments
  rw [same, List.map_id]
  exact sortBy_perm _ _

/-- The dictionary of sampled units counts one more reading. -/
theorem sampledUnits_alter (credited : Credited input seen state) (wcName : String)
    (reading : T × ℚ) (other : String) :
    ((state.sampledUnits.alter wcName fun sampled => sampled.getD 0 + reading.2).get other).getD 0 =
      unitsOf (see seen wcName [reading] other) := by
  rw [Dictionary.get_alter]
  by_cases same : other = wcName
  · subst same
    rw [if_pos rfl, Option.getD_some, credited.sampledUnits, see_self, unitsOf_append]
    simp [unitsOf]
  · rw [if_neg same, see_of_ne same, credited.sampledUnits]

variable {reading : T × ℚ}

/-- Readings at or after the cap are counted but credited to nobody. -/
theorem beyond (credited : Credited input seen state) (wcName : String)
    (reached : BeyondCap input.liveCap reading.1) :
    Credited input (see seen wcName [reading])
      { state with
        sampledUnits := state.sampledUnits.alter wcName fun sampled =>
          sampled.getD 0 + reading.2 } := by
  have same : ∀ other, beforeCap input.liveCap (see seen wcName [reading] other) =
      beforeCap input.liveCap (seen other) := by
    intro other
    by_cases here : other = wcName
    · subst here
      have none : beforeCap input.liveCap [reading] = [] := by simp [beforeCap, reached]
      rw [see_self, beforeCap_append, none, List.append_nil]
    · rw [see_of_ne here]
  exact {
    rows := credited.rows
    sampledUnits := credited.sampledUnits_alter wcName reading
    worked := fun other => by rw [same]; exact credited.worked other
    shares := fun other identity => by rw [same]; exact credited.shares other identity
    sampled := credited.sampled
    uncovered := fun other => by rw [same]; exact credited.uncovered other }

theorem beforeCap_see {wcName : String} (early : ¬BeyondCap input.liveCap reading.1) :
    beforeCap input.liveCap (see seen wcName [reading] wcName) =
      beforeCap input.liveCap (seen wcName) ++ [reading] := by
  have one : beforeCap input.liveCap [reading] = [reading] := by simp [beforeCap, early]
  rw [see_self, beforeCap_append, one]

section

variable (credited : Credited input seen state)
include credited

/-- A reading that nobody covers goes to the bucket of its center. -/
theorem bucketed (wcName : String) {reading : T × ℚ} (early : ¬BeyondCap input.liveCap reading.1)
    (nobody : input.identitiesAt wcName reading.1 = ∅) :
    Credited input (see seen wcName [reading])
      { state with
        sampledUnits := state.sampledUnits.alter wcName fun sampled => sampled.getD 0 + reading.2
        unassigned := state.unassigned.alter wcName (Bucket.addSample reading.1 reading.2) } where
  rows := credited.rows
  sampledUnits := credited.sampledUnits_alter wcName reading
  worked := by
    intro other
    by_cases same : other = wcName
    · subst same
      rw [beforeCap_see early, List.filter_append, List.filter_cons_of_neg (by simp [nobody]),
        List.filter_nil, List.append_nil]
      exact credited.worked other
    · rw [see_of_ne same]
      exact credited.worked other
  shares := by
    intro other identity
    by_cases same : other = wcName
    · subst same
      rw [beforeCap_see early, List.filter_append, List.filter_cons_of_neg (by simp [nobody]),
        List.filter_nil, List.append_nil]
      exact credited.shares other identity
    · rw [see_of_ne same]
      exact credited.shares other identity
  sampled := credited.sampled
  uncovered := by
    intro other
    rw [Dictionary.get_alter]
    by_cases same : other = wcName
    · subst same
      have added : ∀ bucket : Option (Bucket T),
          (Bucket.addSample reading.1 reading.2 bucket).actualUnits =
            bucket.elim 0 Bucket.actualUnits + reading.2 := fun bucket => by cases bucket <;> rfl
      rw [if_pos rfl, Option.elim_some, added, credited.uncovered, beforeCap_see early,
        List.filter_append, List.filter_cons_of_pos (by simp [nobody]), unitsOf_append]
      simp [unitsOf]
    · rw [if_neg same, see_of_ne same]
      exact credited.uncovered other

/-- A covered reading is shared equally among the identities at work. -/
theorem shared (wcName : String) (early : ¬BeyondCap input.liveCap reading.1)
    (somebody : input.identitiesAt wcName reading.1 ≠ ∅) :
    Credited input (see seen wcName [reading])
      { state with
        sampledUnits := state.sampledUnits.alter wcName fun sampled => sampled.getD 0 + reading.2
        rows := (activeByPerson state.rows wcName reading.1).values.foldl
          (fun rows index => rows.modify index (WorkerRow.addPoint reading.1
            (reading.2 / (activeByPerson state.rows wcName reading.1).values.length)))
          state.rows } := by
  have card := card_identitiesAt credited.segments wcName reading.1
  rw [card]
  have some : ((input.identitiesAt wcName reading.1).card : ℚ) ≠ 0 := by
    rw [Nat.cast_ne_zero, Finset.card_ne_zero]
    exact Finset.nonempty_iff_ne_empty.mpr somebody
  exact {
    rows := by
      rw [map_foldl_modify _ (WorkerRow.addPoint _ _) fun _ => rfl]
      exact credited.rows
    sampledUnits := credited.sampledUnits_alter wcName reading
    worked := by
      intro other
      have split := sum_map_foldl_modify
        (fun row : WorkerRow T => if row.segment.wcName = other then row.actualUnits else 0)
        (fun row => if row.segment.wcName = other
          then reading.2 / ((input.identitiesAt wcName reading.1).card : ℚ) else 0)
        (WorkerRow.addPoint reading.1 (reading.2 / (input.identitiesAt wcName reading.1).card))
        (fun row => by
          by_cases here : row.segment.wcName = other
          · simp [WorkerRow.addPoint, here]
          · simp [WorkerRow.addPoint, here]) (fun _ => rfl)
        (activeByPerson state.rows wcName reading.1).values state.rows
      rw [sum_activeByPerson _ _ _ _ (fun _ => if wcName = other
          then reading.2 / ((input.identitiesAt wcName reading.1).card : ℚ) else 0)
        (fun row atCenter => by rw [atCenter])] at split
      rw [← sum_map_ite, split, sum_map_ite, credited.worked, List.map_const', List.sum_replicate,
        ← Dictionary.length_values, card]
      by_cases same : wcName = other
      · subst same
        rw [if_pos rfl, beforeCap_see early, List.filter_append,
          List.filter_cons_of_pos (by simpa using somebody), unitsOf_append, nsmul_eq_mul,
          mul_div_cancel₀ _ some]
        simp [unitsOf]
      · rw [if_neg same, see_of_ne (Ne.symm same), nsmul_zero, add_zero]
    shares := by
      intro other identity
      have split := sum_map_foldl_modify (pointsOf other identity)
        (fun row => if row.segment.wcName = other ∧ row.segment.attributionKey = identity
          then {input.sharePoint wcName reading} else 0)
        (WorkerRow.addPoint reading.1 (reading.2 / (input.identitiesAt wcName reading.1).card))
        (pointsOf_addPoint _ _ _ _) (fun _ => rfl)
        (activeByPerson state.rows wcName reading.1).values state.rows
      rw [sum_activeByPerson _ _ _ _ (fun key => if key = identity
          then (if wcName = other then {input.sharePoint wcName reading} else 0) else 0)
        (fun row atCenter => by
          rw [atCenter]
          by_cases key : row.segment.attributionKey = identity <;> simp [key]),
        sum_map_ite_eq_of_nodup (Dictionary.nodup_keys _), credited.shares] at split
      rw [split, if_congr (mem_keys_activeByPerson credited.segments) rfl rfl]
      by_cases same : wcName = other
      · subst same
        rw [if_pos rfl, beforeCap_see early, List.filter_append, List.map_append,
          ← Multiset.coe_add]
        by_cases present : identity ∈ input.identitiesAt wcName reading.1
        · rw [if_pos present, List.filter_cons_of_pos (by simpa using present)]
          rfl
        · rw [if_neg present, List.filter_cons_of_neg (by simpa using present)]
          rfl
      · rw [if_neg same, see_of_ne (Ne.symm same), ite_self, add_zero]
    sampled := by
      refine forall_mem_foldl_modify _ (fun row sums => ?_) _ credited.sampled
      simp [WorkerRow.addPoint, sums]
    uncovered := by
      intro other
      by_cases same : other = wcName
      · subst same
        rw [beforeCap_see early, List.filter_append,
          List.filter_cons_of_neg (by simpa using somebody), List.filter_nil, List.append_nil]
        exact credited.uncovered other
      · rw [see_of_ne same]
        exact credited.uncovered other }

/-- One sample is accounted for. -/
theorem creditSample (wcName : String) (sample : T × Option ℚ) :
    Credited input (see seen wcName (positive [sample]))
      (creditSample input.liveCap wcName state sample) := by
  rw [Production.creditSample]
  by_cases none : sample.2.getD 0 ≤ 0
  · have unseen : positive [sample] = [] := by simp [positive, none]
    rw [unseen, see_nil, if_pos none]
    exact credited
  · have reading : positive [sample] = [(sample.1, sample.2.getD 0)] := by
      simp [positive, not_le.mp none]
    rw [reading, if_neg none]
    by_cases late : BeyondCap input.liveCap sample.1
    · rw [if_pos late]
      exact credited.beyond wcName late
    · rw [if_neg late]
      have card := card_identitiesAt credited.segments wcName sample.1
      by_cases nobody : input.identitiesAt wcName sample.1 = ∅
      · rw [nobody, Finset.card_empty, List.length_eq_zero_iff] at card
        simp only [card, ne_eq, not_true_eq_false, if_false]
        exact credited.bucketed wcName late nobody
      · have somebody : (activeByPerson state.rows wcName sample.1).values ≠ [] := fun empty =>
          nobody (Finset.card_eq_zero.mp (card.symm.trans (by rw [empty]; rfl)))
        simp only [somebody, ne_eq, not_false_eq_true, if_true]
        exact credited.shared wcName late nobody

theorem creditSample_foldl (wcName : String) (samples : List (T × Option ℚ)) :
    Credited input (see seen wcName (positive samples))
      (samples.foldl (Production.creditSample input.liveCap wcName) state) := by
  induction samples generalizing seen state with
  | nil => simpa [positive] using credited
  | cons sample rest ih =>
      have split : positive (sample :: rest) = positive [sample] ++ positive rest :=
        List.filterMap_append (l := [sample]) ..
      rw [split, ← see_see]
      exact ih (credited.creditSample wcName sample)

/-- All entries of a sample map are accounted for. -/
theorem creditSamples_foldl {entries : List (String × List (T × Option ℚ))}
    (distinct : (entries.map Prod.fst).Nodup) :
    Credited input
      (fun wcName => seen wcName ++ positive (sortBy Prod.fst ((entries.lookup wcName).getD [])))
      (entries.foldl (creditSamples input.liveCap) state) := by
  induction entries generalizing seen state with
  | nil => simpa [positive] using credited
  | cons entry rest ih =>
      obtain ⟨absent, later⟩ := List.nodup_cons.mp distinct
      have next := ih (credited.creditSample_foldl entry.1 (sortBy Prod.fst entry.2)) later
      refine Eq.subst (motive := fun seen => Credited input seen _) (funext fun wcName => ?_) next
      rw [Dictionary.lookup_cons_eq]
      by_cases same : wcName = entry.1
      · subst same
        have none : rest.lookup entry.1 = none := by
          rw [List.lookup_eq_none_iff]
          intro other member
          exact bne_iff_ne.mpr fun equal => absent (equal ▸ List.mem_map_of_mem member)
        rw [see_self, if_pos rfl, none, Option.getD_none, Option.getD_some, sortBy_nil]
        exact List.append_nil _
      · rw [see_of_ne same, if_neg same]

end

end Credited

/-- Before any sample nothing is credited. -/
theorem credited_initial (input : CreditInput T) :
    Credited input (fun _ => []) (initialCrediting input) where
  rows := by
    have reads : ∀ index segment, ((workerRow input.minutes input.liveCap index segment).segment,
        (workerRow input.minutes input.liveCap index segment).productiveMinutes) =
          (segment, max 0 (input.minutes segment)) := fun _ _ => rfl
    exact map_mapIdx_eq_map reads _
  sampledUnits _ := rfl
  worked wcName := by
    have none : ∀ row ∈ (initialCrediting input).rows, row.actualUnits = 0 := by
      intro row member
      obtain ⟨index, inside, rfl⟩ := List.mem_mapIdx.mp member
      rfl
    exact List.sum_eq_zero fun units member => by
      obtain ⟨row, inRows, rfl⟩ := List.mem_map.mp member
      exact none row (List.mem_filter.mp inRows).1
  shares wcName identity := by
    refine List.sum_eq_zero fun points member => ?_
    obtain ⟨row, inRows, rfl⟩ := List.mem_map.mp member
    obtain ⟨index, inside, rfl⟩ := List.mem_mapIdx.mp inRows
    exact ite_self _
  sampled row member := by
    obtain ⟨index, inside, rfl⟩ := List.mem_mapIdx.mp member
    rfl
  uncovered _ := rfl

/-- The samples of every center are accounted for, in the order of time. -/
theorem credited_sampledCrediting (input : CreditInput T) :
    Credited input
      (fun wcName => positive (sortBy Prod.fst ((input.samplesByWc.get wcName).getD [])))
      (sampledCrediting input) :=
  (credited_initial input).creditSamples_foldl input.samplesByWc.distinct

/-! ## Crediting the totals -/

omit [LinearOrder T] in
theorem unitsOf_perm {first second : List (T × ℚ)} (perm : first.Perm second) :
    unitsOf first = unitsOf second := (perm.map _).sum_eq

theorem positive_sortBy_perm (samples : List (T × Option ℚ)) :
    (positive (sortBy Prod.fst samples)).Perm (positive samples) :=
  (sortBy_perm _ samples).filterMap _

namespace Credited

variable {input : CreditInput T} {seen : String → List (T × ℚ)} {state : Crediting T}

theorem minutes_nonneg (credited : Credited input seen state) {row : WorkerRow T}
    (member : row ∈ state.rows) : 0 ≤ row.productiveMinutes := by
  have image : (row.segment, row.productiveMinutes) ∈
      state.rows.map fun row => (row.segment, row.productiveMinutes) := List.mem_map_of_mem member
  rw [credited.rows] at image
  obtain ⟨segment, _, equal⟩ := List.mem_map.mp image
  have minutes : max 0 (input.minutes segment) = row.productiveMinutes := congrArg Prod.snd equal
  exact minutes ▸ le_max_left 0 (input.minutes segment)

theorem sum_productiveMinutes (credited : Credited input seen state) (wcName : String) :
    ((state.rows.filter fun row => row.segment.wcName = wcName).map
      WorkerRow.productiveMinutes).sum = input.minutesAt wcName := by
  have pairs : (state.rows.filter fun row => row.segment.wcName = wcName).map
      WorkerRow.productiveMinutes =
      ((state.rows.map fun row => (row.segment, row.productiveMinutes)).filter fun pair =>
        pair.1.wcName = wcName).map Prod.snd := by
    rw [List.filter_map, List.map_map]
    rfl
  rw [pairs, credited.rows, List.filter_map, List.map_map]
  exact (((sortBy_perm _ input.segments).filter _).map _).sum_eq

end Credited

/-- A row with its part of the remainder given to its center. -/
def withRemainder (input : CreditInput T) (given : String → ℚ) (row : WorkerRow T) : WorkerRow T :=
  { row with
    actualUnits := row.actualUnits +
      input.spread row.segment.wcName (given row.segment.wcName) row.productiveMinutes }

/-- The state holds the sampled credits and the remainder given to each center. -/
structure Settled (input : CreditInput T) (given : String → ℚ) (state : Crediting T) : Prop where
  sampledUnits : state.sampledUnits = (sampledCrediting input).sampledUnits
  rows : state.rows = (sampledCrediting input).rows.map (withRemainder input given)
  unassigned : ∀ wcName, (state.unassigned.get wcName).elim 0 Bucket.actualUnits =
    ((sampledCrediting input).unassigned.get wcName).elim 0 Bucket.actualUnits +
      if input.minutesAt wcName = 0 then given wcName else 0

theorem settled_initial (input : CreditInput T) :
    Settled input (fun _ => 0) (sampledCrediting input) where
  sampledUnits := rfl
  rows := by
    have same : ∀ row, withRemainder input (fun _ => 0) row = row := by
      intro row
      simp [withRemainder, CreditInput.spread]
    rw [List.map_congr_left fun row _ => same row, List.map_id']
  unassigned wcName := by rw [ite_self, add_zero]

namespace Settled

variable {input : CreditInput T} {given : String → ℚ} {state : Crediting T}

section

variable (settled : Settled input given state)
include settled

theorem getElem?_rows (index : ℕ) :
    state.rows[index]? = ((sampledCrediting input).rows[index]?).map (withRemainder input given) := by
  rw [settled.rows, List.getElem?_map]

/-- The minutes over which a remainder is spread are those of the center. -/
theorem totalMinutes (wcName : String) :
    (((indicesByWc state.rows wcName).filter fun index =>
        0 < (state.rows[index]?).elim 0 WorkerRow.productiveMinutes).map fun index =>
          (state.rows[index]?).elim 0 WorkerRow.productiveMinutes).sum = input.minutesAt wcName := by
  have credited := credited_sampledCrediting input
  have nonneg : ∀ index ∈ indicesByWc state.rows wcName,
      ¬0 < (state.rows[index]?).elim 0 WorkerRow.productiveMinutes →
        (state.rows[index]?).elim 0 WorkerRow.productiveMinutes = 0 := by
    intro index member notPositive
    refine le_antisymm (not_lt.mp notPositive) ?_
    rw [settled.getElem?_rows]
    cases found : (sampledCrediting input).rows[index]? with
    | none => exact le_rfl
    | some row =>
        have fromSample : 0 ≤ row.productiveMinutes :=
          credited.minutes_nonneg (List.mem_of_getElem? found)
        exact fromSample
  rw [sum_map_filter _ _ nonneg, indicesByWc, map_filter_range, settled.rows, List.filter_map,
    List.map_map]
  exact credited.sum_productiveMinutes wcName

theorem sampledUnits_get (wcName : String) :
    (state.sampledUnits.get wcName).getD 0 = unitsOf (input.readings wcName) := by
  rw [settled.sampledUnits, (credited_sampledCrediting input).sampledUnits]
  exact unitsOf_perm (positive_sortBy_perm _)

/-- A center is given the part of its total that its samples do not reach. -/
theorem creditTotal {entry : String × Option ℚ} (nothing : given entry.1 = 0) :
    Settled input (Function.update given entry.1
      (max 0 (entry.2.getD 0 - unitsOf (input.readings entry.1)))) (creditTotal state entry) := by
  rw [Production.creditTotal, settled.sampledUnits_get]
  by_cases reached : max 0 (entry.2.getD 0 - unitsOf (input.readings entry.1)) ≤ 0
  · have zero : max 0 (entry.2.getD 0 - unitsOf (input.readings entry.1)) = given entry.1 :=
      (le_antisymm reached (le_max_left _ _)).trans nothing.symm
    rw [if_pos reached, zero, Function.update_eq_self]
    exact settled
  · rw [if_neg reached]
    simp only [settled.totalMinutes]
    generalize max 0 (entry.2.getD 0 - unitsOf (input.readings entry.1)) = remaining
    have given' : ∀ wcName, wcName ≠ entry.1 →
        Function.update given entry.1 remaining wcName = given wcName := fun wcName different =>
      Function.update_of_ne different ..
    by_cases minutes : 0 < input.minutesAt entry.1
    · rw [if_pos minutes]
      refine ⟨settled.sampledUnits, ?_, ?_⟩
      · apply List.ext_getElem?
        intro index
        rw [getElem?_foldl_modify _ ((nodup_indicesByWc _ _).filter _), List.getElem?_map,
          settled.getElem?_rows]
        cases found : (sampledCrediting input).rows[index]? with
        | none => simp
        | some row =>
            have eligible : index ∈ (indicesByWc state.rows entry.1).filter (fun index =>
                0 < (state.rows[index]?).elim 0 WorkerRow.productiveMinutes) ↔
                row.segment.wcName = entry.1 ∧ 0 < row.productiveMinutes := by
              rw [List.mem_filter, mem_indicesByWc, settled.getElem?_rows, found,
                decide_eq_true_eq]
              simp [withRemainder]
            by_cases atCenter : row.segment.wcName = entry.1
            · by_cases productive : 0 < row.productiveMinutes
              · rw [if_pos (eligible.mpr ⟨atCenter, productive⟩)]
                simp [withRemainder, WorkerRow.addRemainder, CreditInput.spread, atCenter, nothing,
                  minutes.ne']
              · have idle : row.productiveMinutes = 0 := le_antisymm (not_lt.mp productive)
                  ((credited_sampledCrediting input).minutes_nonneg (List.mem_of_getElem? found))
                rw [if_neg fun member => productive (eligible.mp member).2]
                simp [withRemainder, CreditInput.spread, idle]
            · rw [if_neg fun member => atCenter (eligible.mp member).1]
              simp [withRemainder, given' _ atCenter]
      · intro wcName
        by_cases same : wcName = entry.1
        · subst same
          rw [settled.unassigned, if_neg minutes.ne', if_neg minutes.ne']
        · rw [given' _ same]
          exact settled.unassigned wcName
    · have none : input.minutesAt entry.1 = 0 := by
        refine le_antisymm (not_lt.mp minutes) (List.sum_nonneg fun minutes member => ?_)
        obtain ⟨segment, _, rfl⟩ := List.mem_map.mp member
        exact le_max_left 0 _
      rw [if_neg minutes]
      refine ⟨settled.sampledUnits, ?_, ?_⟩
      · rw [settled.rows]
        refine List.map_congr_left fun row member => ?_
        by_cases atCenter : row.segment.wcName = entry.1
        · simp [withRemainder, CreditInput.spread, atCenter, none]
        · simp [withRemainder, given' _ atCenter]
      · intro wcName
        rw [Dictionary.get_alter]
        by_cases same : wcName = entry.1
        · subst same
          have added : ∀ bucket : Option (Bucket T),
              (Bucket.addRemainder remaining bucket).actualUnits =
                bucket.elim 0 Bucket.actualUnits + remaining := fun bucket => by cases bucket <;> rfl
          rw [if_pos rfl, Option.elim_some, added, settled.unassigned, if_pos none, if_pos none,
            nothing, add_zero, Function.update_self]
        · rw [if_neg same, given' _ same]
          exact settled.unassigned wcName

/-- Every center is given the remainder of its total. -/
theorem creditTotal_foldl {entries : List (String × Option ℚ)}
    (distinct : (entries.map Prod.fst).Nodup) (nothing : ∀ entry ∈ entries, given entry.1 = 0) :
    Settled input (fun wcName => match entries.lookup wcName with
        | none => given wcName
        | some total => max 0 (total.getD 0 - unitsOf (input.readings wcName)))
      (entries.foldl Production.creditTotal state) := by
  induction entries generalizing given state with
  | nil => exact settled
  | cons entry rest ih =>
      obtain ⟨absent, later⟩ := List.nodup_cons.mp distinct
      have untouched : ∀ other ∈ rest, other.1 ≠ entry.1 := fun other member equal =>
        absent (equal ▸ List.mem_map_of_mem member)
      have next := ih (settled.creditTotal (nothing entry List.mem_cons_self)) later
        fun other member => (Function.update_of_ne (untouched other member) ..).trans
          (nothing other (List.mem_cons_of_mem _ member))
      refine Eq.subst (motive := fun given => Settled input given _) (funext fun wcName => ?_) next
      rw [Dictionary.lookup_cons_eq]
      by_cases same : wcName = entry.1
      · subst same
        have none : rest.lookup entry.1 = none := by
          rw [List.lookup_eq_none_iff]
          exact fun other member => bne_iff_ne.mpr (untouched other member).symm
        rw [if_pos rfl, none]
        exact Function.update_self ..
      · rw [if_neg same]
        cases rest.lookup wcName with
        | none => exact Function.update_of_ne same ..
        | some total => rfl

end

end Settled

/-- After the totals every center has been given its remainder. -/
theorem settled_totaledCrediting (input : CreditInput T) :
    Settled input input.remainder (totaledCrediting input) := by
  rw [totaledCrediting]
  by_cases allowed : input.allowTotalFallback = true
  · rw [if_pos allowed]
    refine Eq.subst (motive := fun given => Settled input given _) (funext fun wcName => ?_)
      ((settled_initial input).creditTotal_foldl input.wcTotals.distinct fun _ _ => rfl)
    rw [CreditInput.remainder, if_pos allowed]
    rfl
  · rw [if_neg allowed]
    refine Eq.subst (motive := fun given => Settled input given _) (funext fun wcName => ?_)
      (settled_initial input)
    rw [CreditInput.remainder, if_neg allowed]

/-! ## The credits of a center -/

theorem creditable_perm (input : CreditInput T) (wcName : String) :
    (beforeCap input.liveCap
      (positive (sortBy Prod.fst ((input.samplesByWc.get wcName).getD [])))).Perm
        (input.creditable wcName) :=
  (positive_sortBy_perm _).filter _

omit [LinearOrder T] in
theorem unitsOf_filter_add (readings : List (T × ℚ)) (test : T × ℚ → Prop) [DecidablePred test] :
    unitsOf (readings.filter fun reading => ¬test reading) + unitsOf (readings.filter test) =
      unitsOf readings := by
  induction readings with
  | nil => exact add_zero _
  | cons reading rest ih =>
      have head : unitsOf (reading :: rest) = reading.2 + unitsOf rest := rfl
      rw [head, ← ih]
      by_cases holds : test reading
      · rw [List.filter_cons_of_neg (by simpa using holds), List.filter_cons_of_pos (by simpa)]
        simp only [unitsOf, List.map_cons, List.sum_cons]
        ring
      · rw [List.filter_cons_of_pos (by simpa using holds), List.filter_cons_of_neg (by simpa)]
        simp only [unitsOf, List.map_cons, List.sum_cons]
        ring

omit [LinearOrder T] in
/-- Spreading a remainder over the rows of a center gives all of it away. -/
theorem sum_spread (input : CreditInput T) (wcName : String) (remaining : ℚ)
    {minutes : List ℚ} (whole : minutes.sum = input.minutesAt wcName) :
    (minutes.map (input.spread wcName remaining)).sum =
      if input.minutesAt wcName = 0 then 0 else remaining := by
  by_cases none : input.minutesAt wcName = 0
  · have nothing : minutes.map (input.spread wcName remaining) = minutes.map fun _ => 0 :=
      List.map_congr_left fun part _ => if_pos none
    rw [nothing, if_pos none, List.sum_map_zero]
  · have parts : minutes.map (input.spread wcName remaining) =
        minutes.map fun part => part * (remaining / input.minutesAt wcName) := by
      refine List.map_congr_left fun part _ => ?_
      rw [CreditInput.spread, if_neg none]
      ring
    rw [parts, List.sum_map_mul_right, List.map_id', whole, if_neg none, mul_div_cancel₀ _ none]

/-- The rows of the workers of a center, once every total is credited. -/
def workersAt (input : CreditInput T) (wcName : String) : List (WorkerRow T) :=
  (totaledCrediting input).rows.filter fun row => row.segment.wcName = wcName

theorem workersAt_eq (input : CreditInput T) (wcName : String) :
    workersAt input wcName = ((sampledCrediting input).rows.filter fun row =>
      row.segment.wcName = wcName).map (withRemainder input input.remainder) := by
  rw [workersAt, (settled_totaledCrediting input).rows, List.filter_map]
  rfl

theorem sum_workersAt (input : CreditInput T) (wcName : String) :
    ((workersAt input wcName).map WorkerRow.actualUnits).sum =
      unitsOf ((input.creditable wcName).filter fun reading =>
        input.identitiesAt wcName reading.1 ≠ ∅) +
      if input.minutesAt wcName = 0 then 0 else input.remainder wcName := by
  have credited := credited_sampledCrediting input
  have split : (workersAt input wcName).map WorkerRow.actualUnits =
      ((sampledCrediting input).rows.filter fun row => row.segment.wcName = wcName).map fun row =>
        row.actualUnits + input.spread wcName (input.remainder wcName) row.productiveMinutes := by
    rw [workersAt_eq, List.map_map]
    refine List.map_congr_left fun row member => ?_
    have atCenter : row.segment.wcName = wcName := by simpa using (List.mem_filter.mp member).2
    simp [withRemainder, atCenter]
  have spread := sum_spread input wcName (input.remainder wcName)
    (credited.sum_productiveMinutes wcName)
  rw [List.map_map] at spread
  rw [split, List.sum_map_add, credited.worked]
  exact congrArg₂ (· + ·) (unitsOf_perm ((creditable_perm input wcName).filter _)) spread

omit [LinearOrder T] in
/-- The unassigned credits of a center hold the units of its bucket. -/
theorem map_actualUnits_bucketCredits (buckets : Dictionary String (Bucket T)) (count : ℕ)
    (wcName : String) :
    ((buckets.entries.mapIdx fun offset entry =>
        entry.2.credit (count + offset) entry.1).filter fun credit =>
          credit.wcName = wcName).map SegmentCredit.actualUnits =
      ((buckets.get wcName).map Bucket.actualUnits).toList := by
  obtain ⟨entries, distinct⟩ := buckets
  change _ = ((entries.lookup wcName).map Bucket.actualUnits).toList
  induction entries generalizing count with
  | nil => rfl
  | cons entry rest ih =>
      obtain ⟨absent, later⟩ := List.nodup_cons.mp distinct
      have shifted := ih (count + 1) later
      simp only [Nat.add_assoc, Nat.add_comm 1] at shifted
      rw [List.mapIdx_cons, Dictionary.lookup_cons_eq]
      by_cases same : wcName = entry.1
      · have none : rest.lookup wcName = none := by
          rw [List.lookup_eq_none_iff]
          exact fun other member => bne_iff_ne.mpr fun equal =>
            absent (same ▸ equal ▸ List.mem_map_of_mem member)
        have center : (entry.2.credit (count + 0) entry.1).wcName = wcName := same.symm
        rw [List.filter_cons_of_pos (by simpa using center), List.map_cons, shifted, none, if_pos same]
        rfl
      · have center : ¬(entry.2.credit (count + 0) entry.1).wcName = wcName := Ne.symm same
        rw [List.filter_cons_of_neg (by simpa using center), shifted, if_neg same]

/-- The unassigned credits of a center. -/
def bucketCreditsAt (input : CreditInput T) (wcName : String) : List (SegmentCredit T) :=
  ((totaledCrediting input).unassigned.entries.mapIdx fun offset entry =>
    entry.2.credit ((totaledCrediting input).rows.length + offset) entry.1).filter fun credit =>
      credit.wcName = wcName

theorem personName_of_mem_bucketCreditsAt {input : CreditInput T} {wcName : String}
    {credit : SegmentCredit T} (member : credit ∈ bucketCreditsAt input wcName) :
    credit.personName = none := by
  obtain ⟨index, inside, rfl⟩ := List.mem_mapIdx.mp (List.mem_filter.mp member).1
  rfl

theorem creditsAt_perm (input : CreditInput T) (wcName : String) :
    (((creditWorkSegments input).get wcName).getD []).Perm
      ((workersAt input wcName).map WorkerRow.credit ++ bucketCreditsAt input wcName) := by
  have group : ((creditRows (totaledCrediting input)).filter fun credit =>
      credit.wcName = wcName) =
        (workersAt input wcName).map WorkerRow.credit ++ bucketCreditsAt input wcName := by
    rw [creditRows, List.filter_append, List.filter_map]
    rfl
  rw [← group, ← Dictionary.getD_get_groupBy, creditWorkSegments, Dictionary.get_mapValues]
  cases (Dictionary.groupBy SegmentCredit.wcName (creditRows (totaledCrediting input))).get
      wcName with
  | none => exact List.Perm.refl _
  | some credits => exact sortBy_perm _ _

/-- Conservation does not depend on the order of the credits. -/
theorem UnitsConserved.of_perm {input : CreditInput T} {wcName : String}
    {first second : List (SegmentCredit T)} (conserved : UnitsConserved input wcName second)
    (perm : first.Perm second) : UnitsConserved input wcName first where
  total := ((perm.map _).sum_eq).trans conserved.total
  workers := ((perm.filter _).map _).trans conserved.workers
  shares identity := ((perm.filter _).flatMap_right _).trans (conserved.shares identity)
  sampled credit member := conserved.sampled credit (perm.mem_iff.mp member)
  unassigned := (((perm.filter _).map _).sum_eq).trans conserved.unassigned
  oneUnassigned := (perm.filter _).length_eq.le.trans conserved.oneUnassigned

section

variable (input : CreditInput T) (wcName : String)

theorem filter_named :
    ((workersAt input wcName).map WorkerRow.credit ++ bucketCreditsAt input wcName).filter
        (fun credit => credit.personName ≠ none) =
      (workersAt input wcName).map WorkerRow.credit := by
  rw [List.filter_append, List.filter_eq_self.mpr, List.filter_eq_nil_iff.mpr, List.append_nil]
  · intro credit member
    simp [personName_of_mem_bucketCreditsAt member]
  · intro credit member
    obtain ⟨row, _, rfl⟩ := List.mem_map.mp member
    simp [WorkerRow.credit]

theorem filter_unnamed :
    ((workersAt input wcName).map WorkerRow.credit ++ bucketCreditsAt input wcName).filter
        (fun credit => credit.personName = none) = bucketCreditsAt input wcName := by
  rw [List.filter_append, List.filter_eq_nil_iff.mpr, List.nil_append, List.filter_eq_self.mpr]
  · intro credit member
    simp [personName_of_mem_bucketCreditsAt member]
  · intro credit member
    obtain ⟨row, _, rfl⟩ := List.mem_map.mp member
    simp [WorkerRow.credit]

theorem filter_identity (identity : PersonAttributionKey) :
    (((workersAt input wcName).map WorkerRow.credit ++ bucketCreditsAt input wcName).filter
        fun credit => credit.attributionKey = some identity).flatMap SegmentCredit.unitPoints =
      ((workersAt input wcName).filter fun row =>
        row.segment.attributionKey = identity).flatMap WorkerRow.unitPoints := by
  rw [List.filter_append, List.filter_eq_nil_iff (l := bucketCreditsAt input wcName) |>.mpr,
    List.append_nil, List.filter_map, List.flatMap_map]
  · have same : ∀ row : WorkerRow T, (row.credit.attributionKey = some identity) =
        (row.segment.attributionKey = identity) := by
      intro row
      exact propext (Option.some_inj)
    simp only [Function.comp_def, same]
    rfl
  · intro credit member
    simp [SegmentCredit.attributionKey, personName_of_mem_bucketCreditsAt member]

omit [LinearOrder T] in
/-- The points of an identity's rows at a center. -/
theorem coe_flatMap_unitPoints (identity : PersonAttributionKey) (rows : List (WorkerRow T)) :
    ((((rows.filter fun row => row.segment.wcName = wcName).filter fun row =>
        row.segment.attributionKey = identity).flatMap WorkerRow.unitPoints :
          List (CreditedUnitPoint T)) : Multiset (CreditedUnitPoint T)) =
      (rows.map (pointsOf wcName identity)).sum := by
  induction rows with
  | nil => rfl
  | cons row rest ih =>
      rw [List.map_cons, List.sum_cons, ← ih, pointsOf]
      by_cases atCenter : row.segment.wcName = wcName
      · by_cases identified : row.segment.attributionKey = identity
        · simp [atCenter, identified]
        · simp [atCenter, identified]
      · simp [atCenter]

end

/-- Crediting accounts for all units of every center, however the segments overlap and
whichever of the maps the center is in. -/
theorem creditWorkSegments_conserved (input : CreditInput T) (wcName : String) :
    UnitsConserved input wcName (((creditWorkSegments input).get wcName).getD []) := by
  have credited := credited_sampledCrediting input
  have settled := settled_totaledCrediting input
  have bucket := map_actualUnits_bucketCredits (totaledCrediting input).unassigned
    (totaledCrediting input).rows.length wcName
  have unassigned : ((bucketCreditsAt input wcName).map SegmentCredit.actualUnits).sum =
      unitsOf ((input.creditable wcName).filter fun reading =>
        input.identitiesAt wcName reading.1 = ∅) +
        if input.minutesAt wcName = 0 then input.remainder wcName else 0 := by
    have elim : ∀ held : Option (Bucket T), (held.map Bucket.actualUnits).toList.sum =
        held.elim 0 Bucket.actualUnits := fun held => by cases held <;> simp
    rw [bucketCreditsAt, bucket, elim, settled.unassigned, credited.uncovered,
      unitsOf_perm ((creditable_perm input wcName).filter _)]
  refine UnitsConserved.of_perm ?_ (creditsAt_perm input wcName)
  exact {
    total := by
      have workers : ((workersAt input wcName).map WorkerRow.credit).map
          SegmentCredit.actualUnits = (workersAt input wcName).map WorkerRow.actualUnits := by
        rw [List.map_map]
        rfl
      rw [List.map_append, List.sum_append, workers, sum_workersAt, unassigned,
        ← unitsOf_filter_add (input.creditable wcName) fun reading =>
          input.identitiesAt wcName reading.1 = ∅]
      split <;> ring
    workers := by
      rw [filter_named, List.map_map, workersAt_eq, List.map_map]
      have pairs : ((sampledCrediting input).rows.filter fun row =>
          row.segment.wcName = wcName).map
            (fun row => (row.segment, row.productiveMinutes)) =
          ((orderedSegments input.segments).filter fun segment => segment.wcName = wcName).map
            fun segment => (segment, max 0 (input.minutes segment)) := by
        have filtered := congrArg (List.filter fun pair : WorkSegment T × ℚ =>
          pair.1.wcName = wcName) credited.rows
        rw [List.filter_map, List.filter_map] at filtered
        exact filtered
      have described := congrArg (List.map fun pair : WorkSegment T × ℚ =>
        (some pair.1.personName, pair.1.personOdooId, some pair.1.start, some pair.1.stop,
          pair.1.source, pair.2)) pairs
      rw [List.map_map, List.map_map] at described
      exact (List.Perm.of_eq described).trans (((sortBy_perm _ _).filter _).map _)
    shares := by
      intro identity
      rw [filter_identity, ← Multiset.coe_eq_coe]
      have untouched : ((workersAt input wcName).filter fun row =>
          row.segment.attributionKey = identity).flatMap WorkerRow.unitPoints =
          (((sampledCrediting input).rows.filter fun row =>
            row.segment.wcName = wcName).filter fun row =>
              row.segment.attributionKey = identity).flatMap WorkerRow.unitPoints := by
        rw [workersAt_eq, List.filter_map, List.flatMap_map]
        rfl
      rw [untouched, coe_flatMap_unitPoints, credited.shares, Multiset.coe_eq_coe]
      exact ((creditable_perm input wcName).filter _).map _
    sampled := by
      intro credit member named
      rcases List.mem_append.mp member with worker | bucketed
      · obtain ⟨row, inRows, rfl⟩ := List.mem_map.mp worker
        rw [workersAt_eq] at inRows
        obtain ⟨sampled, inSampled, rfl⟩ := List.mem_map.mp inRows
        obtain ⟨inState, atCenter⟩ := List.mem_filter.mp inSampled
        have points := credited.sampled sampled inState
        simp only [decide_eq_true_eq] at atCenter
        simp only [WorkerRow.credit, withRemainder, atCenter, points]
      · exact absurd (personName_of_mem_bucketCreditsAt bucketed) named
    unassigned := by rw [filter_unnamed, unassigned]
    oneUnassigned := by
      rw [filter_unnamed, ← List.length_map SegmentCredit.actualUnits, bucketCreditsAt, bucket]
      cases (totaledCrediting input).unassigned.get wcName <;> simp }

end PlantManager.Production

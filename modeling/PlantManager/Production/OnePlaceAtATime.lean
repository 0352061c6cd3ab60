import PlantManager.Production.ResolveSegments
import PlantManager.Ranking.Stable

/-! # One place at a time

The segments that `Production.resolveSegments` returns for a person follow one another
within the shift. With attendance windows they are punch segments only; without, and listed once in
the schedule, they leave no time open: the person is where an attribution says, or else at the
scheduled work center (`Production.resolveSegments_placed`).
-/

namespace PlantManager.Production

open Mapping Ranking Timeline

variable {T : Type*}

namespace ResolveInput

variable (input : ResolveInput T)

/-- The work centers where a person is scheduled, one for each time the name is listed. -/
def scheduledCenters (person : String) : List String :=
  input.assignments.entries.flatMap fun entry =>
    if entry.1 = input.timeOffKey then []
    else (entry.2.filter fun listed => listed = person).map fun _ => entry.1

def attributionsOf (person : String) : List (AttributionRow T) :=
  input.attributions.filter fun row => row.personName = person

/-- The items that are added for a person. -/
def itemsOf (person : String) : List (RawItem T) :=
  (input.added.filter fun item => item.1 = person).map Prod.snd

end ResolveInput

section Added

variable {input : ResolveInput T} {person : String}

theorem getD_get_raw (input : ResolveInput T) (person : String) :
    (input.raw.get person).getD [] = input.itemsOf person := by
  rw [ResolveInput.raw, Dictionary.get_mapValues, ResolveInput.itemsOf,
    ← Dictionary.getD_get_groupBy]
  cases (Dictionary.groupBy Prod.fst input.added).get person with
  | none => rfl
  | some items => rfl

theorem filter_flatMap_map {α β : Type*} (owner : β → String) (groups : List α)
    (items : α → List β) :
    (groups.flatMap items).filter (fun item => owner item = person) =
      groups.flatMap fun group => (items group).filter fun item => owner item = person := by
  induction groups with
  | nil => rfl
  | cons group rest ih => rw [List.flatMap_cons, List.filter_append, ih, List.flatMap_cons]

/-- A test that a person passes leaves all items of the person. -/
theorem filter_owner_filter {α : Type*} (owner : α → String) {test : String → Prop}
    [DecidablePred test] (passes : test person) (items : List α) :
    ((items.filter fun item => test (owner item)).filter fun item => owner item = person) =
      items.filter fun item => owner item = person := by
  rw [List.filter_filter]
  refine List.filter_congr fun item _ => ?_
  by_cases same : owner item = person
  · simp [same, passes]
  · simp [same]

theorem itemsOf_of_excluded (excluded : person ∈ input.excludedPeople) :
    input.itemsOf person = [] := by
  rw [ResolveInput.itemsOf, ResolveInput.added, List.filter_filter, List.map_eq_nil_iff,
    List.filter_eq_nil_iff]
  intro item _ both
  obtain ⟨isPerson, included⟩ := (Bool.and_eq_true _ _).mp both
  exact of_decide_eq_true included (of_decide_eq_true isPerson ▸ excluded)

/-- The schedule and the attributions say nothing about a person with attendance windows. -/
theorem source_of_mem_itemsOf (punched : person ∈ input.punchWindows.keys) {item : RawItem T}
    (member : item ∈ input.itemsOf person) : item.source = "punch" := by
  obtain ⟨pair, found, rfl⟩ := List.mem_map.mp member
  obtain ⟨isAdded, isPerson⟩ := List.mem_filter.mp found
  obtain rfl := of_decide_eq_true isPerson
  rcases List.mem_append.mp (List.mem_filter.mp isAdded).1 with sources | attributed
  · rcases List.mem_append.mp sources with scheduled | windows
    · obtain ⟨entry, -, inEntry⟩ := List.mem_flatMap.mp scheduled
      split at inEntry
      · exact absurd inEntry List.not_mem_nil
      · obtain ⟨listed, isListed, rfl⟩ := List.mem_map.mp inEntry
        exact absurd punched (of_decide_eq_true (List.mem_filter.mp isListed).2)
    · obtain ⟨entry, -, inEntry⟩ := List.mem_flatMap.mp windows
      obtain ⟨found, isFound, rfl⟩ := List.mem_map.mp inEntry
      obtain ⟨window, -, isItem⟩ := List.mem_filterMap.mp isFound
      obtain ⟨wcName, -, isItem⟩ := Option.bind_eq_some_iff.mp isItem
      split at isItem
      · exact absurd isItem nofun
      · obtain rfl := Option.some.inj isItem
        rfl
  · obtain ⟨row, isRow, rfl⟩ := List.mem_map.mp attributed
    exact absurd punched (of_decide_eq_true (List.mem_filter.mp isRow).2)

section

variable (absent : person ∉ input.punchWindows.keys)
include absent

theorem filter_fromSchedule :
    (input.fromSchedule.filter fun item => item.1 = person).map Prod.snd =
      (input.scheduledCenters person).map input.scheduleItem := by
  rw [ResolveInput.fromSchedule, filter_flatMap_map, ResolveInput.scheduledCenters,
    List.map_flatMap, List.map_flatMap]
  refine congrArg (fun emit => List.flatMap emit _) (funext fun entry => ?_)
  split
  · rfl
  · have same := @filter_owner_filter person _ id (fun listed => listed ∉ input.punchWindows.keys)
      _ absent entry.2
    rw [List.filter_map, List.map_map, List.map_map]
    exact (congrArg (List.map fun _ => input.scheduleItem entry.1) same).trans rfl

theorem filter_fromPunches : (input.fromPunches.filter fun item => item.1 = person) = [] := by
  rw [List.filter_eq_nil_iff]
  intro item member isPerson
  obtain ⟨entry, isEntry, inEntry⟩ := List.mem_flatMap.mp member
  obtain ⟨window, -, rfl⟩ := List.mem_map.mp inEntry
  exact absent (of_decide_eq_true isPerson ▸ List.mem_map_of_mem isEntry)

theorem filter_fromAttributions :
    (input.fromAttributions.filter fun item => item.1 = person).map Prod.snd =
      (input.attributionsOf person).map AttributionRow.item := by
  have same := @filter_owner_filter person _ AttributionRow.personName
    (fun listed => listed ∉ input.punchWindows.keys) _ absent input.attributions
  rw [ResolveInput.fromAttributions, List.filter_map, List.map_map]
  exact congrArg (List.map AttributionRow.item) same

/-- Without attendance windows the schedule comes first, then the attributions. -/
theorem itemsOf_of_notPunched (included : person ∉ input.excludedPeople) :
    input.itemsOf person = (input.scheduledCenters person).map input.scheduleItem ++
      (input.attributionsOf person).map AttributionRow.item := by
  have all := @filter_owner_filter person _ Prod.fst (fun listed => listed ∉ input.excludedPeople)
    _ included (input.fromSchedule ++ input.fromPunches ++ input.fromAttributions)
  rw [ResolveInput.itemsOf, ResolveInput.added, all, List.filter_append, List.filter_append,
    List.map_append, List.map_append, filter_fromSchedule absent, filter_fromPunches absent,
    filter_fromAttributions absent, List.map_nil, List.append_nil]

end

end Added

section Person

variable [LinearOrder T] (input : ResolveInput T) (person : String)

theorem inTurn_closeItems {items : List (RawItem T)}
    (ordered : items.Pairwise fun first second => first.start ≤ second.start) :
    InTurn WorkSegment.window input.shiftStart input.cap (input.closeItems person items) :=
  (inTurn_closeAll RawItem.start RawItem.stop input.shiftStart input.cap ordered).map fun _ => rfl

theorem inTurn_resolvePerson (items : List (RawItem T)) :
    InTurn WorkSegment.window input.shiftStart input.cap (input.resolvePerson person items) := by
  have ordered := pairwise_sortBy RawItem.start items
  rw [ResolveInput.resolvePerson]
  split
  · exact (fillGaps_spec (fun _ _ => rfl) (inTurn_closeItems input person
      (ordered.filter _))).1.toInTurn
  · exact inTurn_closeItems input person ordered

/-- A segment is of the person, and its source is that of an item. -/
theorem mem_resolvePerson {items : List (RawItem T)} {segment : WorkSegment T}
    (member : segment ∈ input.resolvePerson person items) :
    segment.personName = person ∧ ∃ item ∈ items, segment.source = item.source := by
  have ordered := pairwise_sortBy RawItem.start items
  have closed : ∀ others : List (RawItem T), (∀ item ∈ others, item ∈ items) →
      segment ∈ input.closeItems person others →
        segment.personName = person ∧ ∃ item ∈ items, segment.source = item.source := by
    intro others known isClosed
    obtain ⟨found, isFound, rfl⟩ := List.mem_map.mp isClosed
    exact ⟨rfl, found.1, known _ (mem_of_mem_closeAll _ _ _ _ isFound), rfl⟩
  have sorted : ∀ item ∈ sortBy RawItem.start items, item ∈ items := fun item =>
    (mem_sortBy RawItem.start).mp
  rw [ResolveInput.resolvePerson] at member
  split at member
  · next scheduledItem _ _ isScheduled _ =>
      obtain ⟨-, -, known⟩ := @fillGaps_spec T _ _ _
        (segmentOf person scheduledItem.wcName "schedule") (fun _ _ => rfl) _ _ _
        (inTurn_closeItems input person (ordered.filter _))
      rcases known segment member with attributed | ⟨left, right, rfl⟩
      · exact closed _ (fun item isItem => sorted item (List.mem_of_mem_filter isItem)) attributed
      · obtain ⟨isItem, source⟩ := List.mem_filter.mp
          (isScheduled ▸ List.mem_singleton_self scheduledItem)
        exact ⟨rfl, scheduledItem, sorted _ isItem, (of_decide_eq_true source).symm⟩
  · exact closed _ sorted member

variable (wcName : String)

theorem closeItems_scheduleItem :
    input.closeItems person [input.scheduleItem wcName] = input.fillSchedule person wcName [] := by
  have left : max input.shiftStart input.shiftStart = input.shiftStart := max_self _
  have right : closingMoment input.cap none none = input.cap := min_self _
  change List.map _ (if max input.shiftStart input.shiftStart < closingMoment input.cap none none
    then [_] else []) = _
  rw [left, right, apply_ite (List.map _)]
  refine if_congr Iff.rfl ?_ rfl
  rw [List.map_singleton]
  dsimp only [ResolveInput.scheduleItem, List.head?_nil, Option.map_none]
  rw [left, right]

omit [LinearOrder T] in
theorem filter_attributions (rows : List (AttributionRow T)) :
    ((input.scheduleItem wcName :: rows.map AttributionRow.item).filter fun item =>
        item.source = "schedule") = [input.scheduleItem wcName] ∧
      ((input.scheduleItem wcName :: rows.map AttributionRow.item).filter fun item =>
        item.source = "attribution") = rows.map AttributionRow.item := by
  have isSchedule : (input.scheduleItem wcName).source = "schedule" := rfl
  have different : (input.scheduleItem wcName).source ≠ "attribution" := by
    rw [isSchedule]
    decide
  have isAttribution : ∀ item ∈ rows.map AttributionRow.item, item.source = "attribution" :=
    List.forall_mem_map.mpr fun _ _ => rfl
  constructor
  · rw [List.filter_cons, if_pos (decide_eq_true isSchedule), List.filter_eq_nil_iff.mpr]
    exact fun item member same =>
      different (isSchedule.trans ((of_decide_eq_true same).symm.trans (isAttribution item member)))
  · rw [List.filter_cons, if_neg fun same => different (of_decide_eq_true same)]
    exact List.filter_eq_self.mpr fun item member => decide_eq_true (isAttribution item member)

/-- A person listed once has the scheduled work center around the attributions. -/
theorem resolvePerson_eq (rows : List (AttributionRow T)) :
    input.resolvePerson person (input.scheduleItem wcName :: rows.map AttributionRow.item) =
      input.fillSchedule person wcName (input.closeItems person
        (sortBy RawItem.start (rows.map AttributionRow.item))) := by
  obtain ⟨scheduled, attributed⟩ := filter_attributions input wcName rows
  rw [ResolveInput.resolvePerson, filter_sortBy, filter_sortBy, scheduled, attributed]
  have single : sortBy RawItem.start [input.scheduleItem wcName] = [input.scheduleItem wcName] :=
    rfl
  cases rows with
  | nil => exact closeItems_scheduleItem input person wcName
  | cons row rest =>
      cases found : sortBy RawItem.start ((row :: rest).map AttributionRow.item) with
      | nil =>
          have length := congrArg List.length found
          rw [length_sortBy] at length
          exact absurd length (Nat.succ_ne_zero _)
      | cons => rfl

end Person

section Holding

variable [LinearOrder T] (input : ResolveInput T)

/-- The attribution of a person at a moment: the last one that has started, unless it has ended. -/
def ResolveInput.attributionAt (person : String) (moment : T) : Option (AttributionRow T) :=
  holder AttributionRow.start AttributionRow.stop
    (sortBy AttributionRow.start (input.attributionsOf person)) moment

variable {input} {person : String} {moment : T}

theorem holder_items (input : ResolveInput T) (person : String) (moment : T) :
    holder RawItem.start RawItem.stop (sortBy RawItem.start
        ((input.attributionsOf person).map AttributionRow.item)) moment =
      (input.attributionAt person moment).map AttributionRow.item := by
  have sorted : sortBy RawItem.start ((input.attributionsOf person).map AttributionRow.item) =
      (sortBy AttributionRow.start (input.attributionsOf person)).map AttributionRow.item :=
    (List.map_insertionSort _ _ AttributionRow.item _ fun _ _ _ _ => Iff.rfl).symm
  rw [sorted, holder_map]
  rfl

/-- The segments of the attributions of a person. -/
def ResolveInput.resolvedAttributions (input : ResolveInput T) (person : String) :
    List (WorkSegment T) :=
  input.closeItems person
    (sortBy RawItem.start ((input.attributionsOf person).map AttributionRow.item))

theorem exists_resolved (begun : input.shiftStart ≤ moment) (early : moment < input.cap)
    {row : AttributionRow T} (holds : input.attributionAt person moment = some row) :
    ∃ segment ∈ input.resolvedAttributions person, Inside segment.window moment ∧
      segment.wcName = row.wcName ∧ segment.source = "attribution" := by
  have isHolder := holder_items input person moment
  rw [holds, Option.map_some] at isHolder
  obtain ⟨interval, member, inside⟩ := (mem_closeAll_iff RawItem.start RawItem.stop
    input.shiftStart input.cap (pairwise_sortBy RawItem.start _) begun early).mpr isHolder
  exact ⟨_, List.mem_map_of_mem member, inside, rfl, rfl⟩

theorem not_inside_resolved (begun : input.shiftStart ≤ moment) (early : moment < input.cap)
    (nobody : input.attributionAt person moment = none) {segment : WorkSegment T}
    (member : segment ∈ input.resolvedAttributions person) : ¬Inside segment.window moment := by
  intro inside
  obtain ⟨closed, isClosed, rfl⟩ := List.mem_map.mp member
  have isHolder := (mem_closeAll_iff RawItem.start RawItem.stop input.shiftStart input.cap
    (pairwise_sortBy RawItem.start _) begun early).mp ⟨closed.2, isClosed, inside⟩
  rw [holder_items, nobody] at isHolder
  exact absurd isHolder nofun

/-- A person listed once is where the attribution says, or else at the scheduled work center. -/
theorem resolvePerson_at (wcName : String) (begun : input.shiftStart ≤ moment)
    (early : moment < input.cap) :
    ∃ segment, ((input.resolvePerson person (input.scheduleItem wcName ::
        (input.attributionsOf person).map AttributionRow.item)).filter fun segment =>
          Inside segment.window moment) = [segment] ∧
      match input.attributionAt person moment with
      | none => segment.wcName = wcName ∧ segment.source = "schedule"
      | some row => segment.wcName = row.wcName ∧ segment.source = "attribution" := by
  have resolved := inTurn_closeItems input person
    (pairwise_sortBy RawItem.start ((input.attributionsOf person).map AttributionRow.item))
  obtain ⟨tiles, kept, known⟩ := @fillGaps_spec T _ _ _
    (segmentOf person wcName "schedule") (fun _ _ => rfl) _ _ _ resolved
  rw [resolvePerson_eq]
  cases holds : input.attributionAt person moment with
  | none =>
      obtain ⟨segment, member, inside⟩ := tiles.covers moment begun early
      refine ⟨segment, filter_inside_eq tiles.follow member inside, ?_⟩
      rcases known segment member with attributed | ⟨left, right, rfl⟩
      · exact absurd inside (not_inside_resolved begun early holds attributed)
      · exact ⟨rfl, rfl⟩
  | some row =>
      obtain ⟨segment, member, inside, place⟩ := exists_resolved begun early holds
      exact ⟨segment, filter_inside_eq tiles.follow (kept.subset member) inside, place⟩

end Holding

variable [LinearOrder T]

/-- The segments of one person are those that the items of the person resolve to. -/
theorem filter_resolveSegments (input : ResolveInput T) (person : String) :
    ((resolveSegments input).filter fun segment => segment.personName = person) =
      input.resolvePerson person (input.itemsOf person) := by
  have owned : ∀ entry ∈ input.raw.entries, ∀ segment ∈ input.resolvePerson entry.1 entry.2,
      segment.personName = entry.1 := fun entry _ _ member =>
    (mem_resolvePerson input entry.1 member).1
  rw [resolveSegments, Dictionary.filter_flatMap_entries WorkSegment.personName owned,
    ← getD_get_raw]
  cases input.raw.get person with
  | none => rfl
  | some items => rfl

theorem mem_resolveSegments {input : ResolveInput T} {segment : WorkSegment T}
    (member : segment ∈ resolveSegments input) :
    segment ∈ input.resolvePerson segment.personName (input.itemsOf segment.personName) :=
  filter_resolveSegments input segment.personName ▸
    List.mem_filter.mpr ⟨member, decide_eq_true rfl⟩

/-- The segments of a person follow one another within the shift. With attendance windows they are
punch segments, and an excluded person has none. Without, and listed once, the person is at exactly
one place at every moment until the cap: where the attribution says, or else at the scheduled work
center. -/
theorem resolveSegments_placed (input : ResolveInput T) :
    (∀ person, ((resolveSegments input).filter fun segment =>
      segment.personName = person).Pairwise fun first second => first.stop ≤ second.start) ∧
    (∀ segment ∈ resolveSegments input, segment.start < segment.stop ∧
      input.shiftStart ≤ segment.start ∧ segment.stop ≤ input.cap) ∧
    (∀ segment ∈ resolveSegments input,
      segment.personName ∈ input.punchWindows.keys → segment.source = "punch") ∧
    (∀ segment ∈ resolveSegments input, segment.personName ∉ input.excludedPeople) ∧
    ∀ person wcName, person ∉ input.punchWindows.keys → person ∉ input.excludedPeople →
      input.scheduledCenters person = [wcName] →
      ∀ moment, input.shiftStart ≤ moment → moment < input.cap →
        ∃ segment, ((resolveSegments input).filter fun segment =>
            segment.personName = person ∧ segment.Covers moment) = [segment] ∧
          match input.attributionAt person moment with
          | none => segment.wcName = wcName ∧ segment.source = "schedule"
          | some row => segment.wcName = row.wcName ∧ segment.source = "attribution" := by
  refine ⟨fun person => ?_, fun segment member => ?_, fun segment member punched => ?_,
    fun segment member excluded => ?_, ?_⟩
  · rw [filter_resolveSegments]
    exact (inTurn_resolvePerson input person _).follow
  · have turns := inTurn_resolvePerson input segment.personName (input.itemsOf segment.personName)
    have resolved := mem_resolveSegments member
    exact ⟨turns.positive segment resolved, turns.within segment resolved⟩
  · obtain ⟨-, item, isItem, source⟩ := mem_resolvePerson input _ (mem_resolveSegments member)
    exact source.trans (source_of_mem_itemsOf punched isItem)
  · obtain ⟨-, item, isItem, -⟩ := mem_resolvePerson input _ (mem_resolveSegments member)
    rw [itemsOf_of_excluded excluded] at isItem
    exact absurd isItem List.not_mem_nil
  · intro person wcName absent included once moment begun early
    have items := itemsOf_of_notPunched absent included
    rw [once] at items
    have both : ((resolveSegments input).filter fun segment =>
          segment.personName = person ∧ segment.Covers moment) =
        (input.resolvePerson person (input.itemsOf person)).filter fun segment =>
          Inside segment.window moment := by
      rw [← filter_resolveSegments, List.filter_filter]
      refine List.filter_congr fun segment _ => ?_
      rw [Bool.decide_and, Bool.and_comm]
      rfl
    rw [both, items]
    exact resolvePerson_at wcName begun early

/-- Ann is at the saw but for a detour to repair. -/
def detour (listed : List String) : ResolveInput ℕ where
  assignments := (∅ : Dictionary String (List String)).setDefault "Saw" listed
  attributions := [⟨"Repair", "Ann", 10, some 20⟩]
  punchWindows := ∅
  shiftStart := 0
  cap := 100

theorem detour_returns : ∃ segment,
    ((resolveSegments (detour ["Ann"])).filter fun segment =>
      segment.personName = "Ann" ∧ segment.Covers 50) = [segment] ∧
    segment.wcName = "Saw" ∧ segment.source = "schedule" :=
  (resolveSegments_placed (detour ["Ann"])).2.2.2.2 "Ann" "Saw" (by decide) (by decide) (by decide)
    50 (by decide) (by decide)

/-- A name listed twice at one work center loses the time after a detour. -/
theorem listed_twice_loses_time :
    ¬∀ (input : ResolveInput ℕ) (person wcName : String), person ∉ input.punchWindows.keys →
      person ∉ input.excludedPeople → (input.scheduledCenters person).dedup = [wcName] →
      ∀ moment, input.shiftStart ≤ moment → moment < input.cap →
        ∃ segment ∈ resolveSegments input,
          segment.personName = person ∧ segment.Covers moment := by
  intro claim
  have covered := claim (detour ["Ann", "Ann"]) "Ann" "Saw" (by decide) (by decide) (by decide) 50
    (by decide) (by decide)
  exact absurd covered (by decide)

end PlantManager.Production

import PlantManager.Rotation.Suggestion

/-! # The openings that the flow fills

What a plan says about its candidates and centers: everyone is qualified where the plan would
send them, and the flow is asked a well-formed question
(`Rotation.Inputs.flow_problem`), which it answers in the best way
(`Rotation.Inputs.flow_best`).
-/

namespace PlantManager.Rotation

open Mapping Ranking Solver Roster

/-! ## Levels and costs -/

theorem groupLevel_le_three (person : Option Person) (group : String)
    (requiredSkills : Dictionary String (List String)) :
    groupLevel person group requiredSkills ≤ 3 := by
  cases person with
  | none => exact Int.zero_le_ofNat 3
  | some person =>
      change ((((requiredSkills.get group).getD [group]).map fun skill =>
        max 0 (min 3 (person.level skill))).min?).getD 0 ≤ 3
      cases least : (((requiredSkills.get group).getD [group]).map fun skill =>
          max 0 (min 3 (person.level skill))).min? with
      | none => exact Int.zero_le_ofNat 3
      | some level =>
          obtain ⟨skill, -, rfl⟩ := List.mem_map.mp (List.min?_mem least)
          rw [Option.getD_some]
          omega

theorem preferencePoints_le (preference : Preference) : preferencePoints preference ≤ 30 := by
  cases preference <;> decide

theorem rotationFairness_nonpos (name group : String) (history : RecycledHistory) :
    rotationFairness name group history ≤ 0 := by
  unfold rotationFairness appearancePenalty mostRecentPenalty
  split <;> omega

theorem modeSkillPoints_le (mode : Mode) (level : ℤ) : modeSkillPoints mode level ≤ 100 := by
  unfold modeSkillPoints
  cases mode <;> dsimp only <;> split_ifs <;> omega

theorem minimumRankCost_nonneg (mode : Mode) (person : Person) (group center : String)
    (preferences : Dictionary String (Dictionary String String)) (history : RecycledHistory)
    (requiredSkills : Dictionary String (List String)) :
    0 ≤ minimumRankCost mode person group center preferences history requiredSkills := by
  have rank : -130 ≤ candidateRank mode person group preferences history requiredSkills := by
    have points := preferencePoints_le (preferenceFor preferences person.name group)
    have fairness := rotationFairness_nonpos person.name group history
    have skill := modeSkillPoints_le .normal (groupLevel (some person) group requiredSkills)
    have best := modeSkillPoints_le .optimized (groupLevel (some person) group requiredSkills)
    unfold candidateRank
    cases mode <;> dsimp only <;> omega
  have level := groupLevel_le_three (some person) group requiredSkills
  unfold minimumRankCost
  dsimp only
  omega

namespace Inputs

variable {lower : String → String} {input : Inputs}

theorem edgeCost_nonneg (target : Option DefaultTarget) (person : Person)
    (group center : String) : 0 ≤ input.edgeCost target person group center := by
  have ranked := minimumRankCost_nonneg input.mode person group center input.preferences
    input.history input.groupRequiredSkills
  obtain _ | wanted | userGroup := target
  · exact ranked
  · change 0 ≤ if center = wanted then 0 else _
    split
    · exact le_rfl
    · exact ranked
  · unfold edgeCost
    dsimp only
    split <;> omega

/-! ## People and centers -/

theorem byName_eq_some {name : String} {person : Person} (found : input.byName name = some person) :
    person ∈ input.roster.people ∧ person.name = name := by
  have same := List.find?_some found
  exact ⟨List.mem_of_find?_eq_some found, of_decide_eq_true same⟩

theorem nodup_availableNames : (input.availableNames lower).Nodup :=
  (sortBy_perm lower _).nodup_iff.mpr
    (input.roster.distinct.sublist (List.filter_sublist.map Person.name))

theorem mem_availableNames {name : String} : name ∈ input.availableNames lower ↔
    ∃ person, input.byName name = some person ∧ person.active = true ∧ person.reserve = false := by
  have named : ∀ person ∈ input.roster.people, input.byName person.name = some person := by
    intro person member
    refine List.find?_eq_some_iff_append.mpr ⟨decide_eq_true rfl, ?_⟩
    obtain ⟨before, after, split⟩ := List.append_of_mem member
    refine ⟨before, after, split, fun other earlier => ?_⟩
    have distinct := input.roster.distinct
    rw [split, List.map_append, List.nodup_append] at distinct
    have apart := distinct.2.2 other.name (List.mem_map_of_mem earlier) person.name
      (List.mem_map_of_mem List.mem_cons_self)
    simpa using apart
  rw [availableNames, mem_sortBy, List.mem_map]
  constructor
  · rintro ⟨person, member, rfl⟩
    obtain ⟨listed, free⟩ := List.mem_filter.mp member
    exact ⟨person, named person listed, by simpa using free⟩
  · rintro ⟨person, found, active, free⟩
    obtain ⟨listed, same⟩ := byName_eq_some found
    exact ⟨person, List.mem_filter.mpr ⟨listed, by simp [active, free]⟩, same⟩

variable {center : String} {edge : CandidateEdge}

theorem mem_sortedCenters :
    center ∈ input.sortedCenters lower ↔ center ∈ input.allowedCenters := mem_sortBy lower

theorem nodup_sortedCenters : (input.sortedCenters lower).Nodup :=
  (sortBy_perm lower _).nodup_iff.mpr ((List.nodup_dedup _).filter _)

theorem mem_allowedCenters_of_centerGroup {group : String}
    (found : input.centerGroup lower center = some group) : center ∈ input.allowedCenters := by
  obtain ⟨_, found⟩ := Option.ite_none_right_eq_some.mp found
  assumption

theorem exists_centerGroup (allowed : center ∈ input.allowedCenters) :
    ∃ group, input.centerGroup lower center = some group := by
  obtain ⟨listed, -⟩ := List.mem_filter.mp allowed
  obtain ⟨centers, stored, member⟩ := List.mem_flatten.mp (List.mem_dedup.mp listed)
  obtain ⟨entry, inGroups, rfl⟩ := List.mem_map.mp stored
  have some : ((sortBy (fun entry => lower entry.1) input.groupLocations.entries).find? fun entry =>
      center ∈ entry.2).isSome := by
    rw [List.find?_isSome]
    exact ⟨entry, (mem_sortBy _).mpr inGroups, decide_eq_true member⟩
  obtain ⟨found, isFound⟩ := Option.isSome_iff_exists.mp some
  exact ⟨found.1, by rw [centerGroup, if_pos allowed, isFound]; rfl⟩

/-! ## Candidates -/

/-- An edge to a center that may run, for somebody who is qualified there. -/
structure Qualified (lower : String → String) (input : Inputs) (edge : CandidateEdge) : Prop where
  level : ∃ group, input.centerGroup lower edge.center = some group ∧
    1 ≤ input.levelOf edge.person group
  cost : 0 ≤ edge.rankCost

theorem of_candidateEdge {target : Option DefaultTarget} {person : Person}
    (found : input.candidateEdge lower target person center = some edge) :
    edge.person = person.name ∧ edge.center = center ∧ Qualified lower input edge := by
  obtain ⟨-, found⟩ := Option.ite_none_left_eq_some.mp found
  cases inGroup : input.centerGroup lower center with
  | none =>
      rw [inGroup] at found
      cases found
  | some group =>
      rw [inGroup] at found
      dsimp only at found
      split at found
      · cases found
      · rename_i notBelow
        obtain rfl := Option.some.inj found
        exact ⟨rfl, rfl, ⟨group, inGroup, not_lt.mp notBelow⟩, edgeCost_nonneg _ _ _ _⟩

theorem of_mem_candidateEdges {people : List String} {defaults : Defaults}
    (member : edge ∈ input.candidateEdges lower people defaults) :
    edge.person ∈ people ∧ Qualified lower input edge := by
  obtain ⟨name, listed, inside⟩ := List.mem_flatMap.mp member
  cases known : input.byName name with
  | none =>
      rw [known] at inside
      cases inside
  | some person =>
      rw [known] at inside
      obtain ⟨center, -, found⟩ := List.mem_filterMap.mp inside
      obtain ⟨samePerson, -, qualified⟩ := of_candidateEdge found
      exact ⟨samePerson ▸ (byName_eq_some known).2 ▸ listed, qualified⟩

/-! ## The plan -/

theorem mem_planCenters {planned : CenterPlan} (member : planned ∈ (input.fillPlan lower).centers) :
    ∃ center group, input.centerGroup lower center = some group ∧
      planned = input.planCenter (input.reservations lower) (input.fillPlan lower).edges
        group center := by
  obtain ⟨center, -, found⟩ := List.mem_filterMap.mp member
  obtain ⟨group, inGroup, rfl⟩ := Option.map_eq_some_iff.mp found
  exact ⟨center, group, inGroup, rfl⟩

theorem map_center_planCenters : (input.fillPlan lower).centers.map (fun planned =>
    planned.center.center) = input.sortedCenters lower := by
  have grouped : ∀ center ∈ input.sortedCenters lower, ∃ group,
      input.centerGroup lower center = some group :=
    fun center listed => exists_centerGroup (mem_sortedCenters.mp listed)
  change ((input.sortedCenters lower).filterMap _).map _ = _
  generalize input.sortedCenters lower = centers at grouped ⊢
  induction centers with
  | nil => rfl
  | cons center rest ih =>
      obtain ⟨⟨group, inGroup⟩, others⟩ := List.forall_mem_cons.mp grouped
      rw [List.filterMap_cons, inGroup]
      exact congrArg (center :: ·) (ih others)

theorem mem_edges_of_mem_direct (member : edge ∈ (input.fillPlan lower).directCandidates) :
    edge ∈ (input.fillPlan lower).edges ∧ ∃ planned ∈ (input.fillPlan lower).centers,
      planned.coupled = false ∧ edge.center = planned.center.center := by
  obtain ⟨planned, listed, inside⟩ := List.mem_flatMap.mp member
  obtain ⟨inPlan, free⟩ := List.mem_filter.mp listed
  obtain ⟨kept, same⟩ := List.mem_filter.mp inside
  exact ⟨kept, planned, inPlan, of_decide_eq_true free, of_decide_eq_true same⟩

/-- The flow is asked for different people at different centers, at costs that are not
negative. -/
theorem flow_problem (crews : List AssignmentDecision) :
    BestEffortProblem (flowPeople (input.fillPlan lower) crews)
      (flowCenters input.minimumOnly (input.fillPlan lower) crews)
      (flowCandidates (input.fillPlan lower) crews) where
  peopleDistinct := (nodup_availableNames.filter _).filter _
  centersDistinct := by
    have names : (flowCenters input.minimumOnly (input.fillPlan lower) crews).map
        CompleteCenter.center = input.sortedCenters lower := by
      rw [flowCenters, List.map_map]
      exact map_center_planCenters
    exact names ▸ nodup_sortedCenters
  noCrews := by
    intro center member
    obtain ⟨planned, -, rfl⟩ := List.mem_map.mp member
    rfl
  noProtected := by
    intro center member
    obtain ⟨planned, -, rfl⟩ := List.mem_map.mp member
    rfl
  bounds := by
    intro center member
    obtain ⟨planned, -, rfl⟩ := List.mem_map.mp member
    exact min_le_right _ _
  nonneg := fun edge member =>
    (of_mem_candidateEdges (mem_edges_of_mem_direct (List.mem_filter.mp member).1).1).2.cost

/-! ## The answer of the flow -/

/-- A way to send people to the ordinary centers. -/
def FlowPlacement (lower : String → String) (input : Inputs) (chosen : List CandidateEdge) : Prop :=
  Placement (flowPeople (input.fillPlan lower) (input.crews lower))
    (flowCenters input.minimumOnly (input.fillPlan lower) (input.crews lower))
    (flowCandidates (input.fillPlan lower) (input.crews lower)) chosen

/-- The places of the centers that a placement fills below their minimums. -/
def filledMinimums (lower : String → String) (input : Inputs) (chosen : List CandidateEdge) : ℤ :=
  minimumSlots (flowCenters input.minimumOnly (input.fillPlan lower) (input.crews lower)) chosen

/-- Placing the most people, then filling the most needed places, then with the fewest
overrides and at the least cost. -/
structure BestPlacement (lower : String → String) (input : Inputs) (chosen : List CandidateEdge) :
    Prop where
  placement : FlowPlacement lower input chosen
  best : ∀ other, FlowPlacement lower input other → other.length ≤ chosen.length ∧
    (other.length = chosen.length →
      filledMinimums lower input other ≤ filledMinimums lower input chosen ∧
      (filledMinimums lower input other = filledMinimums lower input chosen →
        toLex (overrideCount (chosen.map decision), totalRankCost (chosen.map decision)) ≤
          toLex (overrideCount (other.map decision), totalRankCost (other.map decision))))

/-- **The flow places people in the best way.** -/
theorem flow_best : ∃ result, (∀ᶠ fuel in Filter.atTop, input.flow lower fuel = .ok result) ∧
    ∃ chosen, BestPlacement lower input chosen ∧ result.decisions.Perm (chosen.map decision) := by
  obtain ⟨result, reached, ⟨chosen, placement, perm, best⟩, -, -⟩ :=
    @solveBestEffortSchedule_optimal lower _ _ _ (@flow_problem lower input (input.crews lower))
  exact ⟨result, reached, chosen, ⟨placement, best⟩, perm⟩

end Inputs

end PlantManager.Rotation

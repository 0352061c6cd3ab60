import PlantManager.Rotation.Openings

/-! # The crews of the coupled centers

The crews are a choice in the sense of `Solver.CrewChoice`: at each coupled center
one of its crews or nobody, and nobody in two crews
(`Rotation.Inputs.crews_choice`).
-/

namespace PlantManager.Rotation

open Mapping Ranking Solver Roster

section Choice

variable {lower : String → String} {minimumOnly : Bool} {plan : FillPlan}

/-- The crews of a center that are small enough. -/
def fittingCrews (minimumOnly : Bool) (plan : FillPlan) (planned : CenterPlan) : List CrewOption :=
  planned.center.crewOptions.filter fun option =>
    (option.members.length : ℤ) ≤ startingCapacity minimumOnly plan planned

theorem mem_fittingCrews {planned : CenterPlan} {option : CrewOption} :
    option ∈ fittingCrews minimumOnly plan planned ↔ option ∈ planned.center.crewOptions ∧
      (option.members.length : ℤ) ≤ startingCapacity minimumOnly plan planned := by
  rw [fittingCrews, List.mem_filter, decide_eq_true_eq]

/-- The crew chosen at a center is free, or there is none. -/
theorem chooseCrew_cases (selected : List AssignmentDecision) (planned : CenterPlan) :
    chooseCrew lower minimumOnly plan selected planned = selected ∨
      ∃ option ∈ fittingCrews minimumOnly plan planned,
        (∀ name ∈ option.people, name ∉ selected.map AssignmentDecision.person) ∧
        chooseCrew lower minimumOnly plan selected planned =
          selected ++ option.members.map partialFill := by
  unfold chooseCrew
  dsimp only
  split
  · exact .inl rfl
  · rename_i option first
    obtain ⟨offered, test⟩ := List.mem_filter.mp
      ((mem_sortBy (crewKey lower)).mp (List.mem_of_mem_head? (Option.mem_def.mpr first)))
    obtain ⟨free, fits⟩ := of_decide_eq_true test
    exact .inr ⟨option, mem_fittingCrews.mpr ⟨offered, fits⟩, free, rfl⟩

theorem map_person_partialFill (members : List CandidateEdge) :
    (members.map partialFill).map AssignmentDecision.person =
      members.map CandidateEdge.person := by
  rw [List.map_map]
  rfl

theorem foldl_chooseCrew (planned : List CenterPlan) (selected : List AssignmentDecision) :
    ∃ chosen, planned.foldl (chooseCrew lower minimumOnly plan) selected =
        selected ++ chosen.map partialFill ∧
      CrewChoice (fittingCrews minimumOnly plan) planned
        (selected.map AssignmentDecision.person).toFinset chosen := by
  induction planned generalizing selected with
  | nil => exact ⟨[], (List.append_nil _).symm, .done _⟩
  | cons center rest ih =>
      rw [List.foldl_cons]
      obtain none | ⟨option, offered, free, took⟩ :=
        @chooseCrew_cases lower minimumOnly plan selected center
      · obtain ⟨chosen, same, choice⟩ := ih selected
        rw [none]
        exact ⟨chosen, same, .skip choice⟩
      · obtain ⟨chosen, same, choice⟩ := ih (selected ++ option.members.map partialFill)
        refine ⟨option.members ++ chosen, ?_, .take offered ?_ ?_⟩
        · rw [took, same, List.map_append, List.append_assoc]
        · rw [Finset.disjoint_left]
          intro name member taken
          exact free name (List.mem_toFinset.mp member) (List.mem_toFinset.mp taken)
        · rwa [List.map_append, map_person_partialFill, List.toFinset_append] at choice

end Choice

namespace Inputs

variable {lower : String → String} {input : Inputs}

/-- A crew that a center may be given. -/
structure CrewOffered (input : Inputs) (state : Reservations) (edges : List CandidateEdge)
    (group center : String) (option : CrewOption) : Prop where
  members : option.members.Sublist (edges.filter fun edge => edge.center = center)
  safe : coverageCrewIsSafe group (state.board.seats center) option.people input.byName
    input.groupRequiredSkills (state.blockTraineesAt center)
  someone : option.members ≠ []
  fits : (option.members.length : ℤ) ≤
    max 0 (input.effectiveCapacity center - (state.board.seats center).length)

variable {option : CrewOption}

variable {center group : String} {state : Reservations}

theorem of_mem_safeCrews {own : List CandidateEdge} {least most : ℤ}
    (member : option ∈ input.safeCrews state own group center least most) :
    option.members.Sublist own ∧
      coverageCrewIsSafe group (state.board.seats center) option.people input.byName
        input.groupRequiredSkills (state.blockTraineesAt center) ∧
      least ≤ option.members.length ∧ (option.members.length : ℤ) ≤ max 0 most := by
  obtain ⟨crew, inside, rfl⟩ := List.mem_map.mp member
  obtain ⟨combined, safe⟩ := List.mem_filter.mp inside
  obtain ⟨size, sized, chosen⟩ := List.mem_flatMap.mp combined
  obtain ⟨sub, length⟩ := sublist_of_mem_combinations chosen
  obtain ⟨inRange, large⟩ := List.mem_filter.mp sized
  have bound := List.mem_range.mp inRange
  refine ⟨sub, of_decide_eq_true safe, ?_, ?_⟩
  · rw [length]
    exact of_decide_eq_true large
  · change (crew.length : ℤ) ≤ _
    omega

theorem of_mem_crewOptions {edges : List CandidateEdge}
    (member : option ∈ (input.planCenter state edges group center).center.crewOptions) :
    (input.planCenter state edges group center).coupled = true ∧
      CrewOffered input state edges group center option := by
  unfold planCenter at member ⊢
  dsimp only at member ⊢
  generalize (if input.needsGreenPartner state group center then (1 : ℤ) else 0) = green at member
  split at member
  · rename_i wanted
    obtain ⟨sub, safe, least, most⟩ := of_mem_safeCrews member
    refine ⟨wanted.1, sub, safe, fun empty => ?_, most.trans ?_⟩
    · rw [empty, List.length_nil] at least
      omega
    · split <;> omega
  · cases member

/-- A plan leaves a center the places that are not taken, or none. -/
theorem planCenter_capacity_le (state : Reservations) (edges : List CandidateEdge)
    (group center : String) : (input.planCenter state edges group center).center.capacity ≤
      max 0 (input.effectiveCapacity center - (state.board.seats center).length) := by
  have none : ∀ (closed : Prop) [Decidable closed] (room : ℤ),
      (if closed then 0 else max 0 room) ≤ max 0 room := by
    intro closed _ room
    split
    · exact le_max_left _ _
    · exact le_rfl
  exact none _ _

/-- The centers of a plan that may be given a crew, in their order. -/
def coupledPlans (lower : String → String) (input : Inputs) : List CenterPlan :=
  sortBy (fun planned => lower planned.center.center)
    ((input.fillPlan lower).centers.filter fun planned => planned.center.crewOptions ≠ [])

theorem mem_of_mem_coupledPlans {planned : CenterPlan} (member : planned ∈ coupledPlans lower input) :
    planned ∈ (input.fillPlan lower).centers :=
  (List.mem_filter.mp ((mem_sortBy _).mp member)).1

theorem nodup_coupledPlans :
    ((coupledPlans lower input).map fun planned => planned.center.center).Nodup := by
  refine ((sortBy_perm _ _).map _).nodup_iff.mpr ?_
  refine List.Nodup.sublist (List.filter_sublist.map _) ?_
  exact map_center_planCenters ▸ nodup_sortedCenters

/-- What a crew is offered to a planned center. -/
theorem offered_of_mem {planned : CenterPlan} (member : planned ∈ (input.fillPlan lower).centers)
    (fitting : option ∈ fittingCrews input.minimumOnly (input.fillPlan lower) planned) :
    planned.coupled = true ∧ ∃ group,
      input.centerGroup lower planned.center.center = some group ∧
      CrewOffered input (input.reservations lower) (input.fillPlan lower).edges group
        planned.center.center option := by
  obtain ⟨center, group, inGroup, rfl⟩ := mem_planCenters member
  obtain ⟨coupled, offered⟩ := of_mem_crewOptions (mem_fittingCrews.mp fitting).1
  exact ⟨coupled, group, inGroup, offered⟩

/-- **The crews are a choice**: at each center one of its crews or nobody. -/
theorem crews_choice : ∃ chosen, input.crews lower = chosen.map partialFill ∧
    CrewChoice (fittingCrews input.minimumOnly (input.fillPlan lower)) (coupledPlans lower input)
      ∅ chosen := by
  obtain ⟨chosen, same, choice⟩ := @foldl_chooseCrew lower input.minimumOnly (input.fillPlan lower)
    (coupledPlans lower input) []
  exact ⟨chosen, same, choice⟩

/-- A crew takes people from the candidates of a coupled center. -/
theorem of_mem_crews {item : AssignmentDecision} (member : item ∈ input.crews lower) :
    ∃ edge ∈ (input.fillPlan lower).edges, item = partialFill edge ∧
      ∃ planned ∈ (input.fillPlan lower).centers, planned.coupled = true ∧
        edge.center = planned.center.center := by
  obtain ⟨chosen, same, choice⟩ := @crews_choice lower input
  rw [same] at member
  obtain ⟨edge, picked, rfl⟩ := List.mem_map.mp member
  obtain ⟨planned, listed, option, fitting, inCrew⟩ := choice.exists_option edge picked
  have inPlan := mem_of_mem_coupledPlans listed
  obtain ⟨coupled, group, inGroup, offered⟩ := offered_of_mem inPlan fitting
  obtain ⟨candidate, here⟩ := List.mem_filter.mp (offered.members.subset inCrew)
  exact ⟨edge, candidate, rfl, planned, inPlan, coupled, of_decide_eq_true here⟩

/-- Nobody has two edges to one center. -/
theorem people_candidateEdge_sublist {target : Option DefaultTarget} {person : Person}
    {centers : List String} (distinct : centers.Nodup) (center : String) :
    (((centers.filterMap (input.candidateEdge lower target person)).filter fun edge =>
      edge.center = center).map CandidateEdge.person).Sublist [person.name] := by
  induction centers with
  | nil => exact List.nil_sublist _
  | cons first rest ih =>
      obtain ⟨absent, later⟩ := List.nodup_cons.mp distinct
      cases found : input.candidateEdge lower target person first with
      | none =>
          rw [List.filterMap_cons_none found]
          exact ih later
      | some edge =>
          rw [List.filterMap_cons_some found]
          obtain ⟨samePerson, sameCenter, -⟩ := of_candidateEdge found
          by_cases here : first = center
          · have none : ((rest.filterMap (input.candidateEdge lower target person)).filter
                fun edge => edge.center = center) = [] := by
              refine List.filter_eq_nil_iff.mpr fun other member same => absent ?_
              obtain ⟨place, listed, isEdge⟩ := List.mem_filterMap.mp member
              rw [here, ← of_decide_eq_true same, (of_candidateEdge isEdge).2.1]
              exact listed
            rw [List.filter_cons, if_pos (decide_eq_true (sameCenter.trans here)), none,
              List.map_singleton, samePerson]
          · rw [List.filter_cons, if_neg (by rw [sameCenter]; simpa using here)]
            exact ih later

theorem people_candidateEdges_sublist (people : List String) (defaults : Defaults)
    (center : String) :
    (((input.candidateEdges lower people defaults).filter fun edge => edge.center = center).map
      CandidateEdge.person).Sublist people := by
  induction people with
  | nil => exact List.nil_sublist _
  | cons name rest ih =>
      rw [candidateEdges, List.flatMap_cons, List.filter_append, List.map_append,
        ← List.singleton_append]
      refine List.Sublist.append ?_ ih
      cases known : input.byName name with
      | none => exact List.nil_sublist _
      | some person =>
          rw [← (byName_eq_some known).2]
          exact people_candidateEdge_sublist nodup_sortedCenters center

theorem CrewOffered.nodup
    (offered : CrewOffered input state (input.fillPlan lower).edges group center option) :
    option.people.Nodup := by
  have people : (input.fillPlan lower).people.Nodup := nodup_availableNames.filter _
  exact people.sublist ((offered.members.map _).trans (people_candidateEdges_sublist _ _ _))

end Inputs

end PlantManager.Rotation

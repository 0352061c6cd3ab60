import PlantManager.Rotation.Crews

/-! # The finished board

The seats of a suggestion are the reserved ones followed by those of the decisions
(`Rotation.Inputs.seatsAt_finish`).
-/

namespace PlantManager.Rotation

open Mapping Ranking Solver Roster

/-- The people whom decisions send to a center. -/
def decidedAt (decisions : List AssignmentDecision) (center : String) : List String :=
  (decisions.filter fun item => item.center = center).map AssignmentDecision.person

theorem mem_decidedAt {decisions : List AssignmentDecision} {center name : String} :
    name ∈ decidedAt decisions center ↔
      ∃ item ∈ decisions, item.center = center ∧ item.person = name := by
  simp [decidedAt, and_assoc]

theorem decidedAt_append (first second : List AssignmentDecision) (center : String) :
    decidedAt (first ++ second) center = decidedAt first center ++ decidedAt second center := by
  rw [decidedAt, List.filter_append, List.map_append]
  rfl

theorem length_decidedAt (decisions : List AssignmentDecision) (center : String) :
    (decidedAt decisions center).length = assignedTo decisions center := by
  rw [decidedAt, List.length_map, assignedTo, List.countP_eq_length_filter]

theorem seatsAt_setDefault (assignments : Assignments) (center other : String) :
    seatsAt (assignments.setDefault center []) other = seatsAt assignments other := by
  rw [seatsAt, Dictionary.setDefault, Dictionary.get_alter]
  split
  · rename_i same
    rw [same, seatsAt]
    rfl
  · rfl

theorem seatsAt_foldl_setDefault (centers : List String) (assignments : Assignments)
    (other : String) :
    seatsAt (centers.foldl (fun assignments center => assignments.setDefault center [])
      assignments) other = seatsAt assignments other := by
  induction centers generalizing assignments with
  | nil => rfl
  | cons center rest ih => rw [List.foldl_cons, ih, seatsAt_setDefault]

namespace Inputs

variable {lower : String → String} {input : Inputs}

theorem code_defaultReason {target : Option DefaultTarget} {center : String} {reason : Reason}
    (honored : input.defaultReason target center = some reason) :
    reason.code ≠ "training_block" := by
  unfold defaultReason at honored
  split at honored
  · split at honored
    · obtain rfl := Option.some.inj honored
      simp
    · cases honored
  · split at honored
    · obtain rfl := Option.some.inj honored
      simp
    · cases honored
  · cases honored

theorem code_optionalReason (mode : Mode) (level : ℤ) (preference : Preference) (group : String)
    (centerCount : ℕ) (trainingDevelopment : Bool) :
    (optionalReason mode level preference group centerCount trainingDevelopment).code ≠
      "training_block" := by
  unfold optionalReason
  split_ifs <;> simp

/-- Placing a decision seats its person for a reason other than training. -/
theorem placeDecision_board (defaults : Defaults) (group : String) (filling : Filling)
    (item : AssignmentDecision) : ∃ reason : Reason, reason.code ≠ "training_block" ∧
      (input.placeDecision defaults group filling item).board =
        filling.board.place item.center item.person (.generated reason) := by
  unfold placeDecision
  dsimp only
  split
  · exact ⟨_, by simp, rfl⟩
  · cases honored : input.defaultReason (targetOf defaults item.person) item.center with
    | some reason => exact ⟨reason, code_defaultReason honored, rfl⟩
    | none =>
        dsimp only
        split
        · exact ⟨_, by simp, rfl⟩
        · exact ⟨_, code_optionalReason _ _ _ _ _ _, rfl⟩

theorem seats_foldl_placeDecision (defaults : Defaults) (group center : String)
    (items : List AssignmentDecision) (filling : Filling) :
    (items.foldl (input.placeDecision defaults group) filling).board.seats center =
      filling.board.seats center ++ decidedAt items center := by
  induction items generalizing filling with
  | nil => exact (List.append_nil _).symm
  | cons item rest ih =>
      obtain ⟨reason, -, placed⟩ := input.placeDecision_board defaults group filling item
      rw [List.foldl_cons, ih, placed, Board.seats_place]
      by_cases here : center = item.center
      · subst here
        simp [decidedAt]
      · simp [decidedAt, here, Ne.symm here]

/-- Placing the decisions for one center seats them there. -/
theorem seats_placeCenter {plan : FillPlan} {minimumOf : String → ℤ} {filling : Filling}
    {entry : String × List AssignmentDecision} {group : String}
    (inGroup : input.centerGroup lower entry.1 = some group) (center : String) :
    ∃ added, (input.placeCenter lower plan minimumOf filling entry).board.seats center =
      filling.board.seats center ++ added ∧ added.Perm (decidedAt entry.2 center) := by
  rw [placeCenter, inGroup]
  exact ⟨_, seats_foldl_placeDecision _ _ _ _ _, ((sortBy_perm _ _).filter _).map _⟩

theorem seats_foldl_placeCenter {plan : FillPlan} {minimumOf : String → ℤ}
    {entries : List (String × List AssignmentDecision)}
    (grouped : ∀ entry ∈ entries, ∃ group, input.centerGroup lower entry.1 = some group)
    (filling : Filling) (center : String) :
    ∃ added, (entries.foldl (input.placeCenter lower plan minimumOf) filling).board.seats center =
      filling.board.seats center ++ added ∧
        added.Perm (decidedAt (entries.flatMap Prod.snd) center) := by
  induction entries generalizing filling with
  | nil => exact ⟨[], (List.append_nil _).symm, .nil⟩
  | cons entry rest ih =>
      obtain ⟨⟨group, inGroup⟩, others⟩ := List.forall_mem_cons.mp grouped
      obtain ⟨first, firstSeats, firstPerm⟩ :=
        @seats_placeCenter lower input plan minimumOf filling entry group inGroup center
      obtain ⟨later, laterSeats, laterPerm⟩ :=
        ih others (input.placeCenter lower plan minimumOf filling entry)
      refine ⟨first ++ later, ?_, ?_⟩
      · rw [List.foldl_cons, laterSeats, firstSeats, List.append_assoc]
      · rw [List.flatMap_cons, decidedAt_append]
        exact firstPerm.append laterPerm

/-- The decisions are all for centers that may run. -/
def Grouped (lower : String → String) (input : Inputs) (decisions : List AssignmentDecision) : Prop :=
  ∀ item ∈ decisions, ∃ group, input.centerGroup lower item.center = some group

theorem grouped_of_mem_edges {edge : CandidateEdge}
    (member : edge ∈ (input.fillPlan lower).edges) :
    ∃ group, input.centerGroup lower edge.center = some group := by
  obtain ⟨group, inGroup, -⟩ := (of_mem_candidateEdges member).2.level
  exact ⟨group, inGroup⟩

/-- What the flow decided is what a best placement chose. -/
structure Decided (lower : String → String) (input : Inputs) (flow : List AssignmentDecision)
    (chosen : List CandidateEdge) : Prop where
  best : BestPlacement lower input chosen
  perm : flow.Perm (chosen.map decision)

variable {flow : List AssignmentDecision} {chosen : List CandidateEdge}

theorem Decided.grouped (decided : Decided lower input flow chosen) :
    Grouped lower input (input.crews lower ++ flow) := by
  intro item member
  rcases List.mem_append.mp member with crew | sent
  · obtain ⟨edge, candidate, rfl, -⟩ := of_mem_crews crew
    exact grouped_of_mem_edges candidate
  · obtain ⟨edge, picked, rfl⟩ := List.mem_map.mp (decided.perm.mem_iff.mp sent)
    have direct := (List.mem_filter.mp (decided.best.placement.candidate picked)).1
    exact grouped_of_mem_edges (mem_edges_of_mem_direct direct).1

theorem entries_grouped {decisions : List AssignmentDecision}
    (grouped : Grouped lower input decisions) :
    ∀ entry ∈ (Dictionary.groupBy AssignmentDecision.center
      (sortDecisions lower decisions)).entries, ∃ group,
        input.centerGroup lower entry.1 = some group := by
  intro entry member
  obtain ⟨item, inside, same⟩ :=
    Dictionary.exists_of_mem_groupBy (List.mem_map_of_mem (f := Prod.fst) member)
  exact same ▸ grouped item ((mem_sortBy _).mp inside)

/-- The finished board has the reserved seats and those of the decisions. -/
theorem seatsAt_finish {plan : FillPlan} {crews : List AssignmentDecision}
    (grouped : Grouped lower input (crews ++ flow)) (center : String) :
    ∃ added, seatsAt (input.finish lower plan crews flow).assignments center =
      plan.reservations.board.seats center ++ added ∧
        added.Perm (decidedAt (crews ++ flow) center) := by
  have sorted := sortBy_perm (decisionKey lower) (crews ++ flow)
  obtain ⟨added, seats, perm⟩ := @seats_foldl_placeCenter lower input plan
    (input.remainingMinimumFor plan flow) _ (entries_grouped grouped) { board := plan.reservations.board } center
  refine ⟨added, (seatsAt_foldl_setDefault _ _ center).trans seats, perm.trans ?_⟩
  exact (((Dictionary.flatMap_groupBy_perm _ _).trans sorted).filter _).map _

end Inputs

end PlantManager.Rotation

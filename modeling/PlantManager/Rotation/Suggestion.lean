import PlantManager.Rotation.Plan
import PlantManager.Solver.BestEffort

/-! # Suggested assignments

`Rotation.Inputs.suggest` reserves seats, chooses crews for the coupled centers,
and sends everyone else to the ordinary centers by one flow that places as many people as
possible.
-/

namespace PlantManager.Rotation

open Mapping Ranking Solver Roster

/-! ## Protected assignments -/

namespace Inputs

variable (lower : String → String) (input : Inputs)

/-- Why somebody who was kept at a center does not count there. -/
def protectedReason (group name : String) : Option String :=
  match input.byName name with
  | none => some "is unavailable in the active roster"
  | some person =>
      if person.active = false then some "is inactive"
      else if person.reserve = true then some "is in Reserves"
      else if ((input.groupRequiredSkills.get group).getD [group]).any fun skill =>
          decide (skill ∉ person.skills.keys) then some "is missing a required skill"
      else if input.levelOf name group < 1 then some "has skill level 0"
      else none

def protectedAssignmentIssues (state : Reservations) : List CoverageIssue :=
  input.groupLocations.entries.flatMap fun (group, centers) =>
    (centers.filter fun center => center ∈ input.allowedCenters).filterMap fun center =>
      let rejections := (state.board.seats center).filterMap fun name =>
        if name ∈ state.blockTraineesAt center ∨ state.board.origin center name = none then none
        else (input.protectedReason group name).map fun reason => {
          person := name
          code := "protected_assignment_unqualified"
          detail := s!"Protected assignment {reason} and does not safely count " ++
            "toward minimum coverage." }
      if rejections = [] then none else some {
        center := center
        group := group
        code := "protected_assignment_unqualified"
        message := s!"{center} has a protected assignment that does not safely " ++
          "count toward minimum coverage."
        rejections := rejections }

end Inputs

/-! ## Crews -/

def preferenceOrder : Preference → ℤ
  | .primary => 0
  | .regular => 1
  | .occasional => 2
  | .never => 3

/-- A member of a crew, as it is placed. -/
def partialFill (edge : CandidateEdge) : AssignmentDecision where
  center := edge.center
  person := edge.person
  level := edge.level
  preference := edge.preference
  reasonCode := "partial_fill"
  reason := "Assigned to a safe Auto work center."
  rankCost := edge.rankCost

section Crews

variable (lower : String → String) (minimumOnly : Bool) (plan : FillPlan)

/-- The seats a center may fill. When only minimums are filled, these are the places it needs
and the present people with this default. -/
def startingCapacity (planned : CenterPlan) : ℤ :=
  let center := planned.center
  if minimumOnly then
    let own := plan.defaults.filter fun entry =>
      entry.2.toOption = some (.exact center.center)
    min center.capacity (max center.minimum own.length)
  else center.capacity

/-- Crews with the highest levels first, then by preference, cost and names. -/
def crewKey (option : CrewOption) : ℤ ×ₗ ℤ ×ₗ ℤ ×ₗ List String :=
  toLex (-(option.members.map CandidateEdge.level).sum,
    toLex ((option.members.map fun member => preferenceOrder member.preference).sum,
      toLex ((option.members.map CandidateEdge.rankCost).sum, option.people.map lower)))

/-- Choose the best crew that is still free. -/
def chooseCrew (selected : List AssignmentDecision) (planned : CenterPlan) :
    List AssignmentDecision :=
  let options := planned.center.crewOptions.filter fun option =>
    (∀ name ∈ option.people, name ∉ selected.map AssignmentDecision.person) ∧
      (option.members.length : ℤ) ≤ startingCapacity minimumOnly plan planned
  match (sortBy (crewKey lower) options).head? with
  | none => selected
  | some option => selected ++ option.members.map partialFill

def chosenCrews : List AssignmentDecision :=
  (sortBy (fun planned => lower planned.center.center)
    (plan.centers.filter fun planned => planned.center.crewOptions ≠ [])).foldl
      (chooseCrew lower minimumOnly plan) []

/-! ## The flow -/

/-- The people whom no crew took. -/
def flowPeople (crews : List AssignmentDecision) : List String :=
  plan.people.filter fun name => name ∉ crews.map AssignmentDecision.person

def flowCenter (crews : List AssignmentDecision) (planned : CenterPlan) : CompleteCenter :=
  let remaining := startingCapacity minimumOnly plan planned -
    assignedTo crews planned.center.center
  { center := planned.center.center
    group := planned.center.group
    minimum := min planned.center.minimum remaining
    capacity := remaining }

def flowCenters (crews : List AssignmentDecision) : List CompleteCenter :=
  plan.centers.map (flowCenter minimumOnly plan crews)

def flowCandidates (crews : List AssignmentDecision) : List CandidateEdge :=
  plan.directCandidates.filter fun edge => edge.person ∉ crews.map AssignmentDecision.person

end Crews

/-! ## Placing the decisions -/

def optionalReason (mode : Mode) (_level : ℤ) (preference : Preference) (group : String)
    (centerCount : ℕ) (trainingDevelopment : Bool) : Reason :=
  if trainingDevelopment then {
    code := "training_development"
    text :=
      if preference = .primary then s!"primary {group} operator"
      else if 1 < centerCount then s!"least-recent {group} center"
      else s!"{group} rotation" }
  else if mode = .optimized then ⟨s!"strongest {group} coverage", "strongest_coverage"⟩
  else if preference = .primary then ⟨s!"primary {group} operator", "primary_preference"⟩
  else if 1 < centerCount then ⟨s!"least-recent {group} center", "rotation_fairness"⟩
  else ⟨s!"{group} rotation", "rotation_fairness"⟩

/-- The board while the decisions are placed, with the places a center still needs. -/
structure Filling where
  board : Board
  defaultAssignments : Dictionary String String := ∅
  remainingMinimum : ℤ := 0

namespace Inputs

variable (lower : String → String) (input : Inputs)

/-- The default that a decision honors, with its reason. -/
def defaultReason (target : Option DefaultTarget) (center : String) : Option Reason :=
  match target with
  | some (.exact wanted) =>
      if wanted = center then some ⟨s!"default work center: {center}", "exact_default"⟩ else none
  | some (.group userGroup) =>
      if center ∈ (input.userGroupCenters.get userGroup).getD [] then
        some ⟨s!"default group {userGroup}; least-used qualified center", "group_default"⟩
      else none
  | none => none

def placeDecision (defaults : Defaults) (group : String) (filling : Filling)
    (decision : AssignmentDecision) : Filling :=
  let placed := fun (reason : Reason) => { filling with
    board := filling.board.place decision.center decision.person (.generated reason)
    remainingMinimum :=
      if 0 < filling.remainingMinimum then filling.remainingMinimum - 1
      else filling.remainingMinimum }
  if decision.preference = .never then
    placed ⟨"Assigned despite Never so every available person is scheduled.",
      "preference_override"⟩
  else
    match input.defaultReason (targetOf defaults decision.person) decision.center with
    | some reason => { placed reason with
        defaultAssignments :=
          filling.defaultAssignments.alter decision.person fun _ => decision.center }
    | none =>
        if 0 < filling.remainingMinimum then
          placed ⟨"Assigned to meet minimum coverage.", "minimum_coverage"⟩
        else
          let level := input.levelOf decision.person group
          placed (optionalReason input.mode level decision.preference group
            ((input.groupLocations.get group).getD []).length
            (input.mode = .training ∧ (level = 1 ∨ level = 2)))

/-- Place the decisions for one center, those with a default first. -/
def placeCenter (plan : FillPlan) (minimumOf : String → ℤ) (filling : Filling)
    (entry : String × List AssignmentDecision) : Filling :=
  match input.centerGroup lower entry.1 with
  | none => filling
  | some group =>
      (sortBy (fun decision => toLex
          (if (targetOf plan.defaults decision.person).isNone then 1 else 0,
            toLex (decision.rankCost, lower decision.person))) entry.2).foldl
        (input.placeDecision plan.defaults group)
        { filling with remainingMinimum := minimumOf entry.1 }

/-- The places that a center still needs once the decisions are made. -/
def remainingMinimumFor (plan : FillPlan) (flow : List AssignmentDecision) (center : String) : ℤ :=
  let planned := ((plan.centers.find? fun planned => planned.center.center = center).map
    fun planned => planned.center.minimum).getD 0
  if input.minimumOnly then max 0 (planned - assignedTo flow center) else planned

def placeDecisions (plan : FillPlan) (crews flow : List AssignmentDecision) : Filling :=
  (Dictionary.groupBy AssignmentDecision.center
    (sortDecisions lower (crews ++ flow))).entries.foldl
      (input.placeCenter lower plan (input.remainingMinimumFor plan flow))
      { board := plan.reservations.board }

end Inputs

/-! ## The suggestion -/

structure RecycledSuggestion where
  assignments : Assignments
  origins : Dictionary String (Dictionary String Origin)
  warnings : List String
  groupLocations : Dictionary String (List String)
  staffedCenters : List String
  unresolvedCenters : List String
  issues : List CoverageIssue
  unusedPeople : List String
  complete : Bool
  availablePeople : List String
  placedPeople : List String
  placementIssues : List PlacementIssue
  defaultAssignments : Dictionary String String
  temporaryTrainingExtras : Assignments
  trainingTrainees : Assignments

namespace Inputs

variable (lower : String → String) (input : Inputs)

/-- What is reported before anybody is placed by the solver. -/
def planIssues (plan : FillPlan) : List PlacementIssue :=
  let board := plan.reservations.board
  let conflicts := (sortBy lower (board.assigned.dedup.filter fun name =>
    conflictingProtected board name)).map fun name =>
      let centers := sortBy lower ((board.assignments.entries.filter fun entry =>
        name ∈ entry.2).map Prod.fst)
      { code := "protected_assignment_conflict"
        person := some name
        centers := centers
        message := s!"{name} is protected at multiple work centers " ++
          "(" ++ ", ".intercalate centers ++ "). Previous schedule kept." }
  let defaults := plan.defaults.filterMap fun entry =>
    match entry.2 with
    | .error issue => some issue
    | .ok _ => none
  let bounds := (input.sortedCenters lower).filterMap fun center =>
    let minimum := input.effectiveMinimum center
    let capacity := input.effectiveCapacity center
    if capacity < minimum then some {
      code := "invalid_center_configuration"
      centers := [center]
      message := s!"{center} has a minimum of {minimum} but a maximum of {capacity}." }
    else none
  conflicts ++ defaults ++ bounds ++ plan.centers.filterMap CenterPlan.failure

/-- What is reported about the finished board. -/
def finalIssues (board : Board) (unused : List String) : List PlacementIssue :=
  unused.map (fun name => {
    code := "person_unplaced"
    person := some name
    message := s!"{name} could not be placed in an enabled Auto work center." }) ++
  ((input.sortedCenters lower).filter fun center =>
    ((board.seats center).length : ℤ) < input.effectiveMinimum center).map fun center => {
      code := "center_minimum_unmet"
      centers := [center]
      message := s!"{center} is below its minimum Auto staffing level." }

def finish (plan : FillPlan) (crews flow : List AssignmentDecision) : RecycledSuggestion :=
  let filled := input.placeDecisions lower plan crews flow
  let assignments := (input.groupLocations.values.flatten.filter fun center =>
    center ∈ input.allowedCenters).foldl (fun assignments center =>
      assignments.setDefault center []) filled.board.assignments
  let board := { filled.board with assignments := assignments }
  let available := input.availableNames lower
  let unused := available.filter fun name => name ∉ board.assigned
  let protectedIssues := input.protectedAssignmentIssues plan.reservations
  let issues := input.planIssues lower plan ++ input.finalIssues lower board unused
  { assignments := assignments
    origins := board.origins
    warnings := (protectedIssues.foldl (fun board issue => board.warnOnce issue.message)
      board).warnings
    groupLocations := input.groupLocations
    staffedCenters := sortBy lower ((plan.centers.filter fun planned =>
      planned.center.minimum ≤
        ((plan.reservations.board.seats planned.center.center).length +
          assignedTo (crews ++ flow) planned.center.center : ℤ)).map
        fun planned => planned.center.center)
    unresolvedCenters := sortBy lower (((issues.flatMap PlacementIssue.centers).filter fun center =>
      center ∈ input.allowedCenters).dedup)
    issues := protectedIssues
    unusedPeople := unused
    complete := unused = [] ∧ ∀ issue ∈ issues, issue.code ≠ "center_minimum_unmet"
    availablePeople := available
    placedPeople := sortBy lower (available.filter fun name => name ∈ board.assigned)
    placementIssues := issues
    defaultAssignments := filled.defaultAssignments
    temporaryTrainingExtras := plan.reservations.temporaryTrainingExtras
    trainingTrainees := plan.reservations.trainingTrainees }

/-- The crews that are chosen for the coupled centers. -/
def crews : List AssignmentDecision :=
  chosenCrews lower input.minimumOnly (input.fillPlan lower)

/-- The flow over the ordinary centers. -/
def flow (fuel : ℕ) : Except Failure CompleteScheduleResult :=
  let plan := input.fillPlan lower
  let crews := input.crews lower
  solveBestEffortSchedule lower fuel (flowPeople plan crews)
    (flowCenters input.minimumOnly plan crews) (flowCandidates plan crews)

/-- Suggest safe assignments for the centers that may run. -/
def suggest (fuel : ℕ) : Except Failure RecycledSuggestion := do
  let result ← input.flow lower fuel
  pure (input.finish lower (input.fillPlan lower) (input.crews lower) result.decisions)

end Inputs

end PlantManager.Rotation

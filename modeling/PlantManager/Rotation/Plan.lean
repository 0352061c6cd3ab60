import PlantManager.Rotation.TrainingBlocks

/-! # What is still to be filled

Once the seats are reserved, the engine resolves the default targets of the people left
(`Rotation.Inputs.resolveDefault`), lists where each of them may go
(`Rotation.Inputs.candidateEdges`) and plans every center
(`Rotation.Inputs.planCenter`). A center whose people depend on each other is
coupled: it is staffed by crews, never person by person.
-/

namespace PlantManager.Rotation

open Mapping Ranking Solver Roster

/-! ## Default targets -/

inductive DefaultTarget where
  | exact (center : String)
  | group (name : String)
deriving DecidableEq, Repr

def DefaultTarget.kind : DefaultTarget → String
  | .exact _ => "exact"
  | .group _ => "group"

def DefaultTarget.target : DefaultTarget → String
  | .exact center => center
  | .group name => name

/-- People with a default, each with the target or with the issue that it has. -/
abbrev Defaults := List (String × Except PlacementIssue DefaultTarget)

def targetOf (defaults : Defaults) (name : String) : Option DefaultTarget :=
  (defaults.lookup name).bind Except.toOption

namespace Inputs

variable (lower : String → String) (input : Inputs)

/-- All targets of each person. -/
def defaultTargets : Dictionary String (List DefaultTarget) :=
  let add := fun (target : String → DefaultTarget) (targets : Dictionary String (List DefaultTarget))
      (entry : String × List String) =>
    (cleanNames entry.2).foldl (fun targets name =>
      targets.alter name fun stored => stored.getD [] ++ [target entry.1]) targets
  input.groupDefaults.entries.foldl (add .group)
    (input.exactDefaults.entries.foldl (add .exact) ∅)

/-- The one target that a person can be sent to. -/
def resolveDefault (name : String) (targets : List DefaultTarget) :
    Except PlacementIssue DefaultTarget :=
  match sortBy (fun target => toLex (target.kind, lower target.target)) targets.dedup with
  | [.exact center] =>
      match input.centerGroup lower center with
      | none => .error {
          code := "exact_default_center_disabled"
          person := some name
          centers := [center]
          message := s!"{name}'s default work center {center} is not enabled." }
      | some group =>
          if input.levelOf name group < 1 then .error {
            code := "exact_default_unqualified"
            person := some name
            centers := [center]
            message := s!"{name} is not qualified for default work center {center}." }
          else .ok (.exact center)
  | [.group target] =>
      let members := ((input.userGroupCenters.get target).getD []).filter fun center =>
        center ∈ input.allowedCenters
      if members = [] then .error {
        code := "group_default_no_enabled_member"
        person := some name
        message := s!"{name}'s default group {target} has no enabled member work center." }
      else if members.all fun center =>
          (input.centerGroup lower center).all fun group =>
            decide (input.levelOf name group < 1) then .error {
        code := "group_default_no_qualified_member"
        person := some name
        centers := sortBy lower members
        message := s!"{name} is not qualified for any enabled work center in default group " ++
          s!"{target}." }
      else .ok (.group target)
  | several =>
      let labels := ", ".intercalate (several.map fun target => s!"{target.kind}:{target.target}")
      .error {
        code := "default_target_conflict"
        person := some name
        centers := several.map DefaultTarget.target
        message := s!"{name} has multiple default targets ({labels}). " ++
          "The Auto scheduler will use its best safe placement." }

/-- The defaults of the people who are still to be placed. -/
def resolveDefaults (people : List String) : Defaults :=
  ((sortBy (fun entry => lower entry.1) input.defaultTargets.entries).filter fun entry =>
    entry.1 ∈ people).map fun entry => (entry.1, input.resolveDefault lower entry.1 entry.2)

/-! ## Candidates -/

/-- What sending somebody to a center costs. An exact default costs nothing. -/
def edgeCost (target : Option DefaultTarget) (person : Person) (group center : String) : ℤ :=
  let rankCost := minimumRankCost input.mode person group center input.preferences input.history
    input.groupRequiredSkills
  match target with
  | some (.exact wanted) => if center = wanted then 0 else rankCost
  | some (.group userGroup) =>
      ((input.history.centerCounts.get (person.name, center)).getD 0 : ℕ) * 10000000000000000 +
        (if some center = input.history.lastCenterByPersonGroup.get
          (person.name, s!"User Group:{userGroup}") then 1 else 0) * 1000000000000000 + rankCost
  | none => rankCost

/-- Another center than the exact default. -/
def awayFromDefault (target : Option DefaultTarget) (center : String) : Bool :=
  match target with
  | some (.exact wanted) => center ≠ wanted
  | _ => false

/-- The edge from a person to a center where the person is qualified. When only minimums are
filled, an exact default is kept to its center. -/
def candidateEdge (target : Option DefaultTarget) (person : Person) (center : String) :
    Option CandidateEdge :=
  if input.minimumOnly = true ∧ awayFromDefault target center = true then none
  else
    match input.centerGroup lower center with
    | none => none
    | some group =>
        let level := input.levelOf person.name group
        if level < 1 then none
        else some {
          person := person.name
          center := center
          level := level
          preference := preferenceFor input.preferences person.name group
          rankCost := input.edgeCost target person group center }

def candidateEdges (people : List String) (defaults : Defaults) : List CandidateEdge :=
  people.flatMap fun name =>
    match input.byName name with
    | none => []
    | some person => (input.sortedCenters lower).filterMap
        (input.candidateEdge lower (targetOf defaults name) person)

end Inputs

/-! ## Centers -/

/-- What a center still needs, and whether its people depend on each other. -/
structure CenterPlan where
  center : CompleteCenter
  coupled : Bool
  failure : Option PlacementIssue := none

/-- Everything the engine knows before it fills the openings. -/
structure FillPlan where
  reservations : Reservations
  people : List String
  defaults : Defaults
  edges : List CandidateEdge
  centers : List CenterPlan

/-- The edges to the centers that are staffed person by person. -/
def FillPlan.directCandidates (plan : FillPlan) : List CandidateEdge :=
  (plan.centers.filter fun planned => planned.coupled = false).flatMap fun planned =>
    plan.edges.filter fun edge => edge.center = planned.center.center

/-- On the board at more than one center. -/
def conflictingProtected (board : Board) (name : String) : Prop :=
  1 < (board.assignments.entries.filter fun entry => name ∈ entry.2).length

instance (board : Board) (name : String) : Decidable (conflictingProtected board name) :=
  inferInstanceAs (Decidable (_ < _))

namespace Inputs

variable (lower : String → String) (input : Inputs)

/-- The people at a center who count toward its minimum. -/
def safeExisting (state : Reservations) (group center : String) : List String :=
  (state.board.seats center).filter fun name =>
    ¬conflictingProtected state.board name ∧
      (name ∈ state.blockTraineesAt center ∨
        (input.byName name).any fun person =>
          decide (minimumEligible person group input.groupRequiredSkills))

/-- Trainees without a partner of level 3. -/
def needsGreenPartner (state : Reservations) (group center : String) : Prop :=
  state.blockTraineesAt center ≠ [] ∧
    ∀ name ∈ state.board.seats center, name ∉ state.blockTraineesAt center →
      input.levelOf name group ≠ 3

instance (state : Reservations) (group center : String) :
    Decidable (input.needsGreenPartner state group center) :=
  inferInstanceAs (Decidable (_ ∧ _))

/-- The safe crews of a center whose sizes lie between two bounds, smaller ones first. -/
def safeCrews (state : Reservations) (own : List CandidateEdge) (group center : String)
    (least most : ℤ) : List CrewOption :=
  let sizes := (List.range (most.toNat + 1)).filter fun size : ℕ => least ≤ size
  ((sizes.flatMap fun size => combinations size own).filter fun crew =>
    coverageCrewIsSafe group (state.board.seats center) (crew.map CandidateEdge.person)
      input.byName input.groupRequiredSkills (state.blockTraineesAt center)).map
        (CrewOption.mk center)

def planCenter (state : Reservations) (edges : List CandidateEdge) (group center : String) :
    CenterPlan :=
  let existing := state.board.seats center
  let own := edges.filter fun edge => edge.center = center
  let remainingMinimum := max 0 (input.effectiveMinimum center -
    (input.safeExisting state group center).length)
  let remainingCapacity := max 0 (input.effectiveCapacity center - existing.length)
  let green : ℤ := if input.needsGreenPartner state group center then 1 else 0
  let coupled : Bool := group = trimSawSkill ∨ input.needsGreenPartner state group center
  let wanted := coupled = true ∧ remainingCapacity ≠ 0 ∧
    (input.minimumOnly = false ∨ remainingMinimum ≠ 0 ∨ green ≠ 0)
  let minimumGenerated := max remainingMinimum green
  let maximumGenerated :=
    let most := min remainingCapacity own.length
    if input.minimumOnly = true then min most minimumGenerated else most
  let crewOptions :=
    if wanted then
      input.safeCrews state own group center (max 1 minimumGenerated) maximumGenerated
    else []
  { center := {
      center := center
      group := group
      minimum := remainingMinimum
      capacity := if coupled = true ∧ crewOptions = [] then 0 else remainingCapacity
      crewOptions := crewOptions }
    coupled := coupled
    failure :=
      if wanted ∧ remainingMinimum ≠ 0 ∧ crewOptions = [] then some {
        code := "no_safe_complete_crew"
        centers := [center]
        message := s!"{center} cannot form a safe complete crew. Previous schedule kept." }
      else none }

def fillPlan : FillPlan :=
  let state := input.reservations lower
  let people := input.solverPeople lower
  let defaults := input.resolveDefaults lower people
  let edges := input.candidateEdges lower people defaults
  { reservations := state
    people := people
    defaults := defaults
    edges := edges
    centers := (input.sortedCenters lower).filterMap fun center =>
      (input.centerGroup lower center).map fun group =>
        input.planCenter state edges group center }

end Inputs

end PlantManager.Rotation

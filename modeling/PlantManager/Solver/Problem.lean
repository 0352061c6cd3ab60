import PlantManager.Ranking.Sorting

/-! # Scheduling problems

People, the work centers they may be sent to, and the decisions a solver returns.
Names are strings; how they are lower-cased for sorting is left to the caller.
-/

namespace PlantManager.Solver

/-- How much a person likes a work center. -/
inductive Preference where
  | primary
  | regular
  | occasional
  | never
deriving DecidableEq, Repr

structure CandidateRejection where
  person : String
  code : String
  detail : String
deriving DecidableEq, Repr

/-- A person who may be sent to a center. -/
structure CandidateEdge where
  person : String
  center : String
  level : ℤ
  preference : Preference
  rankCost : ℤ := 0
deriving DecidableEq, Repr

/-- One when sending the person overrides a `never`. -/
def CandidateEdge.overrideCost (edge : CandidateEdge) : ℤ :=
  if edge.preference = .never then 1 else 0

/-- People who can staff a center together. -/
structure CrewOption where
  center : String
  members : List CandidateEdge
deriving DecidableEq, Repr

def CrewOption.people (option : CrewOption) : List String :=
  option.members.map CandidateEdge.person

/-- A work center and what is still needed to staff it. -/
structure CenterRequirement where
  center : String
  group : String
  remainingSlots : ℤ
  protectedPeople : List String := []
  candidates : List CandidateEdge := []
  crewOptions : List CrewOption := []
  levelZeroPeople : List String := []
  rejections : List CandidateRejection := []
  unresolvedCode : String := "insufficient_qualified_headcount"
  unresolvedMessage : String := ""
deriving DecidableEq, Repr

/-- A person sent to a center. -/
structure AssignmentDecision where
  center : String
  person : String
  level : ℤ
  preference : Preference
  reasonCode : String
  reason : String
  rankCost : ℤ
deriving DecidableEq, Repr

structure CoverageIssue where
  center : String
  group : String
  code : String
  message : String
  rejections : List CandidateRejection := []
deriving DecidableEq, Repr

structure CoverageResult where
  decisions : List AssignmentDecision
  staffedCenters : List String
  unresolvedCenters : List String
  issues : List CoverageIssue
deriving DecidableEq, Repr

/-- A work center with bounds on how many people it takes. -/
structure CompleteCenter where
  center : String
  group : String
  minimum : ℤ
  capacity : ℤ
  protectedPeople : List String := []
  crewOptions : List CrewOption := []
deriving DecidableEq, Repr, Inhabited

structure PlacementIssue where
  code : String
  message : String
  person : Option String := none
  centers : List String := []
  rejections : List CandidateRejection := []
deriving DecidableEq, Repr

structure CompleteScheduleResult where
  complete : Bool
  decisions : List AssignmentDecision
  placedPeople : List String
  unplacedPeople : List String
  staffedCenters : List String
  issues : List PlacementIssue
  totalCost : ℤ := 0
deriving DecidableEq, Repr

/-- Why a solver returns nothing. Only running out of fuel is not an exception of
the program. -/
inductive Failure where
  | outOfFuel
  | keyError (name : String)
  | valueError (message : String)
deriving DecidableEq, Repr

def decision (edge : CandidateEdge) : AssignmentDecision :=
  let override := edge.preference = .never
  { center := edge.center
    person := edge.person
    level := edge.level
    preference := edge.preference
    reasonCode := if override then "preference_override" else "minimum_coverage"
    reason :=
      if override then "Assigned despite Never to meet minimum coverage."
      else "Assigned to meet minimum coverage."
    rankCost := edge.rankCost }

def crewDecisions (option : CrewOption) : List AssignmentDecision := option.members.map decision

variable (edge : CandidateEdge)

@[simp] theorem decision_center : (decision edge).center = edge.center := rfl

@[simp] theorem decision_person : (decision edge).person = edge.person := rfl

@[simp] theorem decision_preference : (decision edge).preference = edge.preference := rfl

@[simp] theorem decision_rankCost : (decision edge).rankCost = edge.rankCost := rfl

end PlantManager.Solver

import PlantManager.Checks.Raise
import PlantManager.Solver.CompleteFlow
import PlantManager.Solver.MinimumCoverage

/-! # Complete schedules

`Solver.solveCompleteSchedule` places every person or nobody. It tries
every choice of crews for the centers that have them, and places the people left by
`Solver.completeFlowAttempt`.
-/

namespace PlantManager.Solver

open Checks Ranking

section Validation

/-- The checks of one crew option of a center. -/
def validateCrewOption (requested : List String) (center : CompleteCenter)
    (option : CrewOption) : Except Failure Unit := do
  raiseIf (option.center ≠ center.center) (.valueError "crew options must be center-scoped")
  raiseIf (¬ option.people.Nodup) (.valueError "crew option people must be unique")
  raiseIf (¬ (center.remainingMinimum ≤ option.members.length ∧
      (option.members.length : ℤ) ≤ center.remainingCapacity))
    (.valueError "crew option size must satisfy remaining center bounds")
  raiseIf (∃ person ∈ option.people, person ∈ center.protectedPeople)
    (.valueError "crew options cannot include protected people")
  option.members.forM fun member => do
    raiseIf (member.center ≠ center.center)
      (.valueError "crew members must match their option center")
    raiseIf (member.person ∉ requested) (.valueError "crew option people must be requested")
    raiseIf (member.level ∉ [1, 2, 3])
      (.valueError "candidate and crew member levels must be 1, 2, or 3")

/-- The checks of one center, given the people protected at earlier ones. -/
def validateCompleteCenter (requested : List String) (protectedSeen : Finset String)
    (center : CompleteCenter) : Except Failure (Finset String) := do
  raiseIf (center.minimum < 0 ∨ center.capacity < 0)
    (.valueError "center minimums and capacities must be nonnegative")
  raiseIf (center.capacity < center.minimum)
    (.valueError "center minimum cannot exceed capacity")
  raiseIf (¬ center.protectedPeople.Nodup)
    (.valueError "protected people must be unique within a center")
  raiseIf (∃ person ∈ center.protectedPeople, person ∈ protectedSeen)
    (.valueError "a protected person cannot occupy multiple centers")
  raiseIf (center.capacity < center.protectedPeople.length)
    (.valueError "protected people cannot exceed center capacity")
  center.crewOptions.forM (validateCrewOption requested center)
  pure (protectedSeen ∪ center.protectedPeople.toFinset)

def validateCompleteProblem (people : List String) (centers : List CompleteCenter)
    (candidates : List CandidateEdge) : Except Failure Unit := do
  raiseIf (¬ people.Nodup) (.valueError "requested people must be unique")
  raiseIf (¬ (centers.map CompleteCenter.center).Nodup)
    (.valueError "complete center names must be unique")
  discard (centers.foldlM (validateCompleteCenter people) ∅)
  candidates.forM fun edge => do
    raiseIf (edge.person ∉ people) (.valueError "candidate people must be requested")
    raiseIf (edge.center ∉ centers.map CompleteCenter.center)
      (.valueError "candidate centers must exist")
    raiseIf (edge.level ∉ [1, 2, 3])
      (.valueError "candidate and crew member levels must be 1, 2, or 3")

end Validation

variable (lower : String → String)

/-- Overrides, then rank cost, then the decisions in order. -/
abbrev AttemptKey := ℕ ×ₗ ℤ ×ₗ List (String ×ₗ String)

def completeAttemptKey (attempt : CompleteAttempt) : AttemptKey :=
  toLex (overrideCount attempt.decisions, toLex (totalRankCost attempt.decisions,
    attempt.decisions.map (decisionKey lower)))

/-- More people, then fewer open slots, then the key. -/
def diagnosticKey (attempt : CompleteAttempt) : ℤ ×ₗ ℤ ×ₗ AttemptKey :=
  toLex (-(attempt.placedPeople.length : ℤ), toLex (attempt.unsatisfiedSlots,
    completeAttemptKey lower attempt))

/-- The best complete attempt and the best attempt so far. -/
structure CompleteState where
  bestComplete : Option CompleteAttempt := none
  bestDiagnostic : Option CompleteAttempt := none

/-- Whether an attempt replaces the best one. -/
def improves {κ : Type*} [LinearOrder κ] (key : CompleteAttempt → κ)
    (attempt : CompleteAttempt) : Option CompleteAttempt → Bool
  | none => true
  | some best => key attempt < key best

def CompleteState.keep (state : CompleteState) (attempt : CompleteAttempt) : CompleteState :=
  { bestComplete :=
      if attempt.complete && improves (completeAttemptKey lower) attempt state.bestComplete then
        some attempt
      else state.bestComplete
    bestDiagnostic :=
      if improves (diagnosticKey lower) attempt state.bestDiagnostic then some attempt
      else state.bestDiagnostic }

/-- Count the decisions at every center, on top of earlier counts. -/
def countAssigned (chosenByCenter : String → ℕ) (decisions : List AssignmentDecision) :
    String → ℕ :=
  decisions.foldl (fun counts item => Function.update counts item.center (counts item.center + 1))
    chosenByCenter

/-- What the search reads and never changes. -/
structure CompleteSearch where
  orderedPeople : List String
  orderedCenters : List CompleteCenter
  flow : List String → Except Failure CompleteAttempt

namespace CompleteSearch

variable (search : CompleteSearch)

/-- The people in no crew. -/
def remainingPeople (crewPeople : List String) : List String :=
  search.orderedPeople.filter fun person => person ∉ crewPeople

/-- The attempt made of crews and of the placement of the others. -/
def combine (crewDecisions : List AssignmentDecision) (chosenByCenter : String → ℕ)
    (flow : CompleteAttempt) : CompleteAttempt :=
  let decisions := sortDecisions lower (crewDecisions ++ flow.decisions)
  let placed := sortBy lower (decisions.map AssignmentDecision.person)
  let assignedByCenter := countAssigned chosenByCenter flow.decisions
  let staffed := sortBy lower ((search.orderedCenters.filter fun center =>
    center.minimum ≤ (center.protectedPeople.length + assignedByCenter center.center : ℤ)).map
      CompleteCenter.center)
  let unsatisfied := (search.orderedCenters.map fun center =>
    max (0 : ℤ)
      (center.minimum - center.protectedPeople.length - assignedByCenter center.center)).sum
  { decisions := decisions
    placedPeople := placed
    staffedCenters := staffed
    unsatisfiedSlots := unsatisfied
    allPeoplePlaced := placed.length == search.orderedPeople.length }

/-- Place the people in no crew and keep the attempt if it is better. -/
def consider (crewDecisions : List AssignmentDecision) (chosenByCenter : String → ℕ)
    (state : CompleteState) : Except Failure CompleteState := do
  let flow ← search.flow
    (search.remainingPeople (crewDecisions.map AssignmentDecision.person))
  pure (state.keep lower (search.combine lower crewDecisions chosenByCenter flow))

/-- Try every crew of every center still open, or none. -/
def visit : List CompleteCenter → Finset String → List AssignmentDecision → (String → ℕ) →
    CompleteState → Except Failure CompleteState
  | [], _, decisions, chosenByCenter, state =>
      search.consider lower decisions chosenByCenter state
  | center :: rest, usedPeople, decisions, chosenByCenter, state => do
      let explored ← (CoverageSearch.orderedOptions lower center.crewOptions).foldlM
        (fun current option =>
          if (option.people.toFinset ∩ usedPeople).Nonempty then .ok current
          else visit rest (usedPeople ∪ option.people.toFinset) (decisions ++ crewDecisions option)
            (Function.update chosenByCenter center.center option.members.length) current) state
      visit rest usedPeople decisions chosenByCenter explored

end CompleteSearch

/-- The centers with crews, those with few options first. -/
def coupledCenters (centers : List CompleteCenter) : List CompleteCenter :=
  sortBy (fun item => toLex (item.crewOptions.length, lower item.center))
    ((sortBy (fun item => lower item.center) centers).filter fun item => item.crewOptions ≠ [])

def ordinaryCenters (centers : List CompleteCenter) : List CompleteCenter :=
  (sortBy (fun item => lower item.center) centers).filter fun item => item.crewOptions = []

def ordinaryCandidates (centers : List CompleteCenter) (candidates : List CandidateEdge) :
    List CandidateEdge :=
  candidates.filter fun edge =>
    edge.center ∉ (coupledCenters lower centers).map CompleteCenter.center

/-- The search for people, centers and candidates. -/
def completeSearch (fuel : ℕ) (people : List String) (centers : List CompleteCenter)
    (candidates : List CandidateEdge) : CompleteSearch :=
  { orderedPeople := sortBy lower people
    orderedCenters := sortBy (fun item => lower item.center) centers
    flow := fun remaining => completeFlowAttempt lower fuel remaining
      (ordinaryCenters lower centers) (ordinaryCandidates lower centers candidates) }

/-- The result that a complete attempt makes. -/
def completeResult (best : CompleteAttempt) : CompleteScheduleResult :=
  { complete := true
    decisions := best.decisions
    placedPeople := best.placedPeople
    unplacedPeople := []
    staffedCenters := best.staffedCenters
    issues := []
    totalCost := totalRankCost best.decisions }

/-- The centers a person could be sent to, in order. -/
def candidateCenters (coupled : List CompleteCenter) (candidates : List CandidateEdge)
    (person : String) : List String :=
  sortBy lower ((((candidates.filter fun edge => edge.person = person).map CandidateEdge.center) ++
    coupled.flatMap fun center => center.crewOptions.flatMap fun option =>
      (option.members.filter fun member => member.person = person).map
        fun _ => center.center).dedup)

/-- Why a person is not placed. -/
def personIssue (coupled : List CompleteCenter) (candidates : List CandidateEdge)
    (person : String) : PlacementIssue :=
  let centersForPerson := candidateCenters lower coupled candidates person
  if centersForPerson = [] then
    { code := "person_no_enabled_qualified_center"
      person := some person
      centers := []
      message := s!"{person} has no enabled work center they are qualified to run. " ++
        "Previous schedule kept." }
  else
    { code := "person_all_qualified_centers_full"
      person := some person
      centers := centersForPerson
      message := s!"Every enabled work center {person} is qualified for is full. " ++
        "Previous schedule kept." }

/-- Why a center is not staffed. -/
def centerIssue (center : CompleteCenter) : PlacementIssue :=
  { code := if center.crewOptions ≠ [] then "no_safe_complete_crew" else "center_minimum_unmet"
    centers := [center.center]
    message := s!"{center.center} cannot be staffed safely to its minimum. " ++
      "Previous schedule kept." }

/-- The result without decisions, explained by the best attempt. -/
def failureResult (orderedPeople : List String) (orderedCenters coupled : List CompleteCenter)
    (candidates : List CandidateEdge) (diagnostic : CompleteAttempt) : CompleteScheduleResult :=
  let unplaced := orderedPeople.filter fun person => person ∉ diagnostic.placedPeople
  { complete := false
    decisions := []
    placedPeople := diagnostic.placedPeople
    unplacedPeople := unplaced
    staffedCenters := diagnostic.staffedCenters
    issues := unplaced.map (personIssue lower coupled candidates) ++
      (orderedCenters.filter fun center => center.center ∉ diagnostic.staffedCenters).map
        centerIssue
    totalCost := 0 }

/-- The result of a finished search. -/
def scheduleResult (orderedPeople : List String) (orderedCenters coupled : List CompleteCenter)
    (candidates : List CandidateEdge) (state : CompleteState) : CompleteScheduleResult :=
  match state.bestComplete with
  | some best => completeResult best
  | none => failureResult lower orderedPeople orderedCenters coupled candidates
      (state.bestDiagnostic.getD ⟨[], [], [], 0, false⟩)

/-- Place every person, or return no decisions. -/
def solveCompleteSchedule (fuel : ℕ) (people : List String) (centers : List CompleteCenter)
    (candidates : List CandidateEdge) : Except Failure CompleteScheduleResult := do
  validateCompleteProblem people centers candidates
  let coupled := coupledCenters lower centers
  let final ← (completeSearch lower fuel people centers candidates).visit lower coupled ∅ []
    (fun _ => 0) {}
  pure (scheduleResult lower (sortBy lower people)
    (sortBy (fun item => lower item.center) centers) coupled candidates final)

end PlantManager.Solver

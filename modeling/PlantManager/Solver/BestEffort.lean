import PlantManager.Checks.Raise
import PlantManager.Solver.CompleteFlowOptimal

/-! # Best-effort schedules

`Solver.solveBestEffortSchedule` places as many people as possible.
`Solver.solveBestEffortSchedule_optimal`: nobody it leaves could have been
placed as well, and the people it places fill the most needed places with the fewest
overrides and then the least rank cost.
-/

namespace PlantManager.Solver

open Checks Ranking

section Model

variable (lower : String → String)

/-- The result that an attempt makes, with the people it leaves. -/
def bestEffortResult (people : List String) (attempt : CompleteAttempt) :
    CompleteScheduleResult :=
  { complete := attempt.allPeoplePlaced
    decisions := attempt.decisions
    placedPeople := attempt.placedPeople
    unplacedPeople := (sortBy lower people).filter fun person => person ∉ attempt.placedPeople
    staffedCenters := attempt.staffedCenters
    issues := []
    totalCost := totalRankCost attempt.decisions }

/-- Place as many people as possible where no crews are needed. -/
def solveBestEffortSchedule (fuel : ℕ) (people : List String) (centers : List CompleteCenter)
    (candidates : List CandidateEdge) : Except Failure CompleteScheduleResult := do
  centers.forM fun center => do
    raiseIf (center.crewOptions ≠ [])
      (.valueError "best-effort centers must not carry crew options")
    raiseIf (center.capacity < center.minimum)
      (.valueError "center minimum cannot exceed capacity")
  let attempt ← completeFlowAttempt lower fuel people centers candidates
  pure (bestEffortResult lower people attempt)

/-- More fuel does not change a schedule. -/
theorem solveBestEffortSchedule_mono {lower : String → String} {fuel more : ℕ}
    (enough : fuel ≤ more) {people : List String} {centers : List CompleteCenter}
    {candidates : List CandidateEdge} {result : CompleteScheduleResult}
    (finished : solveBestEffortSchedule lower fuel people centers candidates = .ok result) :
    solveBestEffortSchedule lower more people centers candidates = .ok result := by
  obtain ⟨valid, checked, rest⟩ := bind_eq_ok.mp finished
  obtain ⟨attempt, placed, made⟩ := bind_eq_ok.mp rest
  exact bind_eq_ok.mpr ⟨valid, checked, bind_eq_ok.mpr
    ⟨attempt, completeFlowAttempt_mono enough placed, made⟩⟩

end Model

/-- What a best-effort schedule is asked for: different people, different centers
without crews or protected people, and costs that are not negative. -/
structure BestEffortProblem (people : List String) (centers : List CompleteCenter)
    (candidates : List CandidateEdge) : Prop where
  peopleDistinct : people.Nodup
  centersDistinct : (centers.map CompleteCenter.center).Nodup
  noCrews : ∀ center ∈ centers, center.crewOptions = []
  noProtected : ∀ center ∈ centers, center.protectedPeople = []
  bounds : ∀ center ∈ centers, center.minimum ≤ center.capacity
  nonneg : ∀ edge ∈ candidates, 0 ≤ edge.rankCost

/-- Candidates that place people at most once each, within the capacities. A negative
capacity counts as zero. -/
structure Placement (people : List String) (centers : List CompleteCenter)
    (candidates chosen : List CandidateEdge) : Prop where
  candidate : chosen ⊆ candidates
  person : ∀ edge ∈ chosen, edge.person ∈ people
  center : ∀ edge ∈ chosen, edge.center ∈ centers.map CompleteCenter.center
  once : (chosen.map CandidateEdge.person).Nodup
  capacity : ∀ center ∈ centers, (loadAt chosen center.center : ℤ) ≤ max 0 center.capacity

/-- The places below the minimums that a placement fills. -/
def minimumSlots (centers : List CompleteCenter) (chosen : List CandidateEdge) : ℤ :=
  (centers.map fun center => min (max 0 center.minimum) (loadAt chosen center.center : ℤ)).sum

section Optimal

variable {lower : String → String} {people : List String} {centers : List CompleteCenter}
  {candidates chosen : List CandidateEdge} (problem : BestEffortProblem people centers candidates)

include problem

theorem BestEffortProblem.flowProblem : FlowProblem people centers candidates :=
  ⟨problem.peopleDistinct, problem.centersDistinct, problem.nonneg⟩

/-- Without protected people a placement is a choice of the flow. -/
theorem placement_iff_flowChoice : Placement people centers candidates chosen ↔
    FlowChoice people centers candidates chosen := by
  have places : ∀ center ∈ centers, (center.places : ℤ) = max 0 center.capacity := by
    intro center listed
    have bounds := problem.bounds center listed
    unfold CompleteCenter.places CompleteCenter.remainingCapacity CompleteCenter.remainingMinimum
    rw [problem.noProtected center listed, List.length_nil]
    omega
  constructor
  · intro placement
    refine ⟨placement.candidate, placement.person, placement.center, placement.once,
      fun center listed => ?_⟩
    have limited := placement.capacity center listed
    rw [← places center listed] at limited
    exact_mod_cast limited
  · intro choice
    refine ⟨choice.candidate, choice.person, choice.center, choice.people,
      fun center listed => ?_⟩
    rw [← places center listed]
    exact_mod_cast choice.within center listed

theorem minimumSlots_eq : minimumSlots centers chosen = filledSlots centers chosen := by
  refine congrArg List.sum (List.map_congr_left fun center listed => ?_)
  rw [CompleteCenter.remainingMinimum, problem.noProtected center listed, List.length_nil,
    Nat.cast_zero, sub_zero]

/-- **Best-effort schedules are optimal.** -/
theorem solveBestEffortSchedule_optimal :
    ∃ result, (∀ᶠ fuel in Filter.atTop,
        solveBestEffortSchedule lower fuel people centers candidates = .ok result) ∧
      (∃ chosen, Placement people centers candidates chosen ∧
        result.decisions.Perm (chosen.map decision) ∧
        ∀ other, Placement people centers candidates other → other.length ≤ chosen.length ∧
          (other.length = chosen.length →
            minimumSlots centers other ≤ minimumSlots centers chosen ∧
            (minimumSlots centers other = minimumSlots centers chosen →
              toLex (overrideCount (chosen.map decision), totalRankCost (chosen.map decision)) ≤
                toLex (overrideCount (other.map decision), totalRankCost (other.map decision))))) ∧
      result.placedPeople.Perm (result.decisions.map AssignmentDecision.person) ∧
      (result.placedPeople ++ result.unplacedPeople).Perm people := by
  obtain ⟨chosen, attempt, reached, decisions, choice, best⟩ :=
    @completeFlowAttempt_best lower people centers candidates problem.flowProblem
  have perm : attempt.decisions.Perm (chosen.map decision) := decisions ▸ sortBy_perm _ _
  have placed : attempt.placedPeople.Perm (attempt.decisions.map AssignmentDecision.person) := by
    obtain ⟨fuel, finished⟩ := reached.exists
    rw [completeFlowAttempt_placed finished]
    exact sortBy_perm _ _
  have valid : (centers.forM fun center => do
      raiseIf (center.crewOptions ≠ [])
        (.valueError "best-effort centers must not carry crew options")
      raiseIf (center.capacity < center.minimum)
        (.valueError "center minimum cannot exceed capacity")) =
          (.ok () : Except Failure Unit) := by
    refine forM_eq_ok.mpr fun center listed => raiseIf_bind_eq_ok.mpr ⟨?_, ?_⟩
    · exact not_not.mpr (problem.noCrews center listed)
    · exact raiseIf_eq_ok.mpr (not_lt.mpr (problem.bounds center listed))
  refine ⟨bestEffortResult lower people attempt, reached.mono fun fuel finished => ?_, ⟨chosen,
    (placement_iff_flowChoice problem).mpr choice, perm, fun other placement => ?_⟩, placed, ?_⟩
  rotate_left
  · obtain ⟨longest, fullest⟩ := best other ((placement_iff_flowChoice problem).mp placement)
    rw [minimumSlots_eq problem, minimumSlots_eq problem]
    exact ⟨longest, fullest⟩
  · have sub : attempt.placedPeople ⊆ people := by
      intro name member
      obtain ⟨item, inside, rfl⟩ := List.mem_map.mp (placed.mem_iff.mp member)
      obtain ⟨edge, picked, rfl⟩ := List.mem_map.mp (perm.mem_iff.mp inside)
      exact choice.person edge picked
    have distinct : attempt.placedPeople.Nodup := by
      rw [placed.nodup_iff, (perm.map _).nodup_iff, List.map_map]
      exact choice.people
    refine (List.perm_ext_iff_of_nodup (List.Nodup.append distinct
      (((sortBy_perm lower people).nodup_iff.mpr problem.peopleDistinct).filter _) ?_)
        problem.peopleDistinct).mpr fun name => ?_
    · intro name inPlaced inLeft
      exact of_decide_eq_true (List.mem_filter.mp inLeft).2 inPlaced
    · rw [List.mem_append, List.mem_filter, mem_sortBy, decide_eq_true_iff]
      exact ⟨fun either => either.elim (@sub name) And.left, fun member => by tauto⟩
  · simp only [solveBestEffortSchedule, valid, finished]
    rfl

end Optimal

/-- A saw for one person and a press for two. -/
def sawAndLargePress : List CompleteCenter :=
  [{ center := "saw", group := "cutting", minimum := 1, capacity := 1 },
    { center := "press", group := "forming", minimum := 2, capacity := 2 }]

/-- Two people for the saw, one of whom may also run the press. -/
def sawAndPressCandidates : List CandidateEdge :=
  [⟨"ann", "saw", 3, .primary, 0⟩, ⟨"bob", "saw", 2, .regular, 4⟩,
    ⟨"bob", "press", 1, .never, 0⟩]

theorem solveBestEffortSchedule_optimal_sawAndPress :
    ∃ result, (∀ᶠ fuel in Filter.atTop, solveBestEffortSchedule id fuel ["ann", "bob", "cy"]
        sawAndLargePress sawAndPressCandidates = .ok result) ∧
      (∃ chosen, Placement ["ann", "bob", "cy"] sawAndLargePress sawAndPressCandidates chosen ∧
        result.decisions.Perm (chosen.map decision) ∧
        ∀ other, Placement ["ann", "bob", "cy"] sawAndLargePress sawAndPressCandidates other →
          other.length ≤ chosen.length ∧
          (other.length = chosen.length →
            minimumSlots sawAndLargePress other ≤ minimumSlots sawAndLargePress chosen ∧
            (minimumSlots sawAndLargePress other = minimumSlots sawAndLargePress chosen →
              toLex (overrideCount (chosen.map decision), totalRankCost (chosen.map decision)) ≤
                toLex (overrideCount (other.map decision), totalRankCost (other.map decision))))) ∧
      result.placedPeople.Perm (result.decisions.map AssignmentDecision.person) ∧
      (result.placedPeople ++ result.unplacedPeople).Perm ["ann", "bob", "cy"] :=
  solveBestEffortSchedule_optimal ⟨by decide +kernel, by decide +kernel, by decide +kernel,
    by decide +kernel, by decide +kernel, by decide +kernel⟩

/-- A center whose bounds are negative. -/
def negativeCenter : CompleteCenter :=
  { center := "saw", group := "cutting", minimum := -2, capacity := -1 }

/-- Nobody at a center is more than a negative capacity. -/
theorem solveBestEffortSchedule_not_within_capacity :
    BestEffortProblem [] [negativeCenter] [] ∧
      ∃ result, (∀ᶠ fuel in Filter.atTop,
          solveBestEffortSchedule id fuel [] [negativeCenter] [] = .ok result) ∧
        negativeCenter.capacity < (assignedTo result.decisions negativeCenter.center : ℤ) := by
  refine ⟨⟨by decide +kernel, by decide +kernel, by decide +kernel, by decide +kernel,
    by decide +kernel, by decide +kernel⟩, ?_⟩
  have run : (solveBestEffortSchedule id 5 [] [negativeCenter] []).toOption.map
      CompleteScheduleResult.decisions = some [] := by decide +kernel
  cases solved : solveBestEffortSchedule id 5 [] [negativeCenter] [] with
  | error failure => rw [solved] at run; cases run
  | ok result =>
      rw [solved] at run
      refine ⟨result, Filter.eventually_atTop.mpr ⟨5, fun fuel enough =>
        solveBestEffortSchedule_mono enough solved⟩, ?_⟩
      have none : result.decisions = [] := Option.some.inj run
      rw [none]
      decide +kernel

end PlantManager.Solver

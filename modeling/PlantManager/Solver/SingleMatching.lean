import PlantManager.Flow.Assignment
import PlantManager.Ranking.Radix
import PlantManager.Solver.Names

/-! # Matching people to centers that need one person

`Solver.matchSingleRequirements` finds the people by a minimum-cost
flow whose costs put overrides before rank costs and rank costs before the position
of the decisions.
-/

namespace PlantManager.Solver

open PlantManager.Flow Ranking

section Model

variable (lower : String → String)

/-- The key by which decisions are ordered. -/
def decisionKey (item : AssignmentDecision) : String ×ₗ String :=
  toLex (lower item.center, lower item.person)

def sortDecisions (decisions : List AssignmentDecision) : List AssignmentDecision :=
  sortBy (decisionKey lower) decisions

/-- The centers in the order of their names. -/
def singleCenterNames (requirements : List CenterRequirement) : List String :=
  (sortBy (fun item => lower item.center) requirements).map CenterRequirement.center

/-- The candidates that are still available, ordered by person, center and cost. -/
def singleEdges (requirements : List CenterRequirement) (unavailablePeople : Finset String) :
    List CandidateEdge :=
  sortBy (fun edge => toLex (lower edge.person, toLex (lower edge.center, edge.rankCost)))
    ((sortBy (fun item => lower item.center) requirements).flatMap fun requirement =>
      requirement.candidates.filter fun edge => edge.person ∉ unavailablePeople)

/-- The people of the edges, each once. -/
def edgePeople (edges : List CandidateEdge) : List String :=
  sortBy lower (edges.map CandidateEdge.person).dedup

def primaryCost (ordinaryBound : ℤ) (edge : CandidateEdge) : ℤ :=
  edge.overrideCost * ordinaryBound + max 0 edge.rankCost

/-- More than all rank costs together. -/
def singleOrdinaryBound (edges : List CandidateEdge) : ℤ :=
  (edges.map fun edge => max 0 edge.rankCost).sum + edges.length + 1

/-- The weight of a person at a center in the positional tie-break. -/
def singleTieCost (people centers personIndex centerIndex : ℕ) : ℤ :=
  let unmatchedDigit := people
  let tieRadix := unmatchedDigit + 1
  let centerPlace := tieRadix ^ (centers - centerIndex - 1)
  ((personIndex : ℤ) - unmatchedDigit) * centerPlace

def singleCost (people centers : ℕ) (ordinaryBound : ℤ) (personIndex centerIndex : ℕ)
    (edge : CandidateEdge) : ℤ :=
  let tieRadix := people + 1
  let tieRange := tieRadix ^ centers - 1
  let tieScale := tieRange + 1
  primaryCost ordinaryBound edge * tieScale +
    singleTieCost people centers personIndex centerIndex

/-- The arc of an edge. -/
def singleArc (people centers : List String) (ordinaryBound : ℤ) (edge : CandidateEdge) :
    Except Failure ArcSpec := do
  let person ← nodeOf 0 people edge.person
  let center ← nodeOf 0 centers edge.center
  pure ⟨person + 1, 1 + people.length + center, 1,
    singleCost people.length centers.length ordinaryBound person center edge⟩

/-- The network of the people, the centers and the edges, with the slots of the edges. -/
def singleNetwork (centers people : List String) (edges : List CandidateEdge) :
    Except Failure (Graph × List ℕ) := do
  let source := 0
  let centerOffset := 1 + people.length
  let sink := centerOffset + centers.length
  let personArcs ← people.mapM fun person => do
    let node ← nodeOf 1 people person
    pure ⟨source, node, 1, 0⟩
  let centerArcs ← centers.mapM fun center => do
    let node ← nodeOf centerOffset centers center
    pure ⟨node, sink, 1, 0⟩
  let edgeArcs ← edges.mapM (singleArc people centers (singleOrdinaryBound edges))
  let withPeople := (addArcs emptyGraph personArcs).1
  let withCenters := (addArcs withPeople centerArcs).1
  pure (addArcs withCenters edgeArcs)

/-- One unit from every person to one center each, as many as possible and at the
least cost. -/
def matchSingleRequirements (fuel : ℕ) (requirements : List CenterRequirement)
    (unavailablePeople : Finset String) : Except Failure (List AssignmentDecision) := do
  let centers := singleCenterNames lower requirements
  let edges := singleEdges lower requirements unavailablePeople
  let people := edgePeople lower edges
  let (graph, slots) ← singleNetwork centers people edges
  match saturate 0 (1 + people.length + centers.length) fuel graph with
  | none => .error .outOfFuel
  | some final =>
      let selected := (edges.zip slots).filter fun entry =>
        (final.arc? ((indexByName people entry.1.person).getD 0 + 1, entry.2)).any
          fun arc => arc.capacity == 0
      pure (sortDecisions lower (selected.map fun entry => decision entry.1))

/-- More fuel does not change the matching. -/
theorem matchSingleRequirements_mono {lower : String → String} {fuel more : ℕ}
    (enough : fuel ≤ more) {requirements : List CenterRequirement}
    {unavailablePeople : Finset String} {decisions : List AssignmentDecision}
    (finished : matchSingleRequirements lower fuel requirements unavailablePeople = .ok decisions) :
    matchSingleRequirements lower more requirements unavailablePeople = .ok decisions := by
  simp only [matchSingleRequirements] at finished ⊢
  cases network : singleNetwork (singleCenterNames lower requirements)
      (edgePeople lower (singleEdges lower requirements unavailablePeople))
      (singleEdges lower requirements unavailablePeople) with
  | error failure => rw [network] at finished; cases finished
  | ok built =>
      rw [network] at finished
      change (match saturate _ _ fuel built.1 with
        | none => _
        | some final => _) = _ at finished
      cases saturated : saturate 0
          (1 + (edgePeople lower (singleEdges lower requirements unavailablePeople)).length +
            (singleCenterNames lower requirements).length) fuel built.1 with
      | none => rw [saturated] at finished; cases finished
      | some final =>
          rw [saturated] at finished
          change (match saturate _ _ more built.1 with
            | none => _
            | some final => _) = _
          rw [saturate_mono enough saturated]
          exact finished

/-- The number of decisions made against a `never`. -/
def overrideCount (decisions : List AssignmentDecision) : ℕ :=
  decisions.countP fun item => item.preference = .never

def totalRankCost (decisions : List AssignmentDecision) : ℤ :=
  (decisions.map AssignmentDecision.rankCost).sum

end Model

end PlantManager.Solver

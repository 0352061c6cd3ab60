import PlantManager.Solver.SingleMatching

/-! # Placing people at centers without crews

`Solver.completeFlowAttempt` places as many people as possible, fills
as many of the places that the centers need as possible, and then avoids overrides
and rank cost, all by one minimum-cost flow.
-/

namespace PlantManager.Solver

open PlantManager.Flow Ranking

/-- What one attempt to place everybody achieves. -/
structure CompleteAttempt where
  decisions : List AssignmentDecision
  placedPeople : List String
  staffedCenters : List String
  unsatisfiedSlots : ℤ
  allPeoplePlaced : Bool
deriving DecidableEq, Repr

def CompleteAttempt.complete (attempt : CompleteAttempt) : Bool :=
  attempt.allPeoplePlaced && attempt.unsatisfiedSlots == 0

/-- Overrides before rank cost. -/
def edgeRank (edge : CandidateEdge) : ℤ ×ₗ ℤ := toLex (edge.overrideCost, max 0 edge.rankCost)

/-- Two edges between the same person and center. -/
def SameKey (first second : CandidateEdge) : Prop :=
  first.person = second.person ∧ first.center = second.center

instance (first second : CandidateEdge) : Decidable (SameKey first second) :=
  inferInstanceAs (Decidable (_ ∧ _))

/-- Add an edge to the best edges, in place of a worse one between the same person
and center. -/
def keepBest (best : List CandidateEdge) (edge : CandidateEdge) : List CandidateEdge :=
  match best.find? fun other => SameKey other edge with
  | none => best ++ [edge]
  | some current =>
      if edgeRank edge < edgeRank current then
        best.map fun other => if SameKey other edge then edge else other
      else best

section Model

variable (lower : String → String)

/-- The cheapest edge between every person and every center. -/
def bestEdges (people centers : List String) (candidates : List CandidateEdge) :
    List CandidateEdge :=
  ((sortBy (fun edge => toLex (lower edge.person, toLex (lower edge.center, edgeRank edge)))
    candidates).filter fun edge => edge.person ∈ people ∧ edge.center ∈ centers).foldl keepBest []

def completeOrdinaryBound (edges : List CandidateEdge) : ℤ :=
  1 + (edges.map fun edge => max 0 edge.rankCost + edge.overrideCost).sum + edges.length

/-- The cost of a person at a center, whose last part only breaks ties. -/
def completeCost (people centers : ℕ) (ordinaryBound : ℤ) (personRank centerRank : ℕ)
    (edge : CandidateEdge) : ℤ :=
  let tieWidth := max 1 (people * max 1 centers + 1)
  let tieScale := tieWidth * (people + 1)
  let tieCost := centerRank * max 1 people + personRank
  primaryCost ordinaryBound edge * tieScale + tieCost

/-- The arc of an edge. -/
def completeArc (people centers : List String) (ordinaryBound : ℤ) (edge : CandidateEdge) :
    Except Failure ArcSpec := do
  let person ← nodeOf 0 people edge.person
  let center ← nodeOf 0 centers edge.center
  pure ⟨person + 1, 1 + people.length + center, 1,
    completeCost people.length centers.length ordinaryBound person center edge⟩

/-- The places that the people not protected still have to fill. -/
def CompleteCenter.remainingMinimum (center : CompleteCenter) : ℤ :=
  max 0 (center.minimum - center.protectedPeople.length)

def CompleteCenter.remainingCapacity (center : CompleteCenter) : ℤ :=
  center.capacity - center.protectedPeople.length

/-- The arcs out of a center: the places to be filled and those beyond them. -/
def centerArcs (sink : ℕ) (requiredReward : ℤ) (node : ℕ) (center : CompleteCenter) :
    ArcSpec × ArcSpec :=
  (⟨node, sink, center.remainingMinimum.toNat, -requiredReward⟩,
    ⟨node, sink, (max 0 (center.remainingCapacity - center.remainingMinimum)).toNat, 0⟩)

/-- Add the arcs out of the centers, returning where the required ones are. -/
def addCenterArcs (graph : Graph) : List (ArcSpec × ArcSpec) → Graph × List Position
  | [] => (graph, [])
  | (required, extra) :: rest =>
      let withRequired := addArc graph required
      let withExtra := addArc withRequired.1 extra
      let final := addCenterArcs withExtra.1 rest
      (final.1, (required.start, withRequired.2) :: final.2)

/-- The network of a flow attempt, with the slots of the edges and the positions of
the required arcs. -/
structure CompleteNetwork where
  graph : Graph
  slots : List ℕ
  required : List Position

def completeNetwork (people : List String) (centers : List CompleteCenter)
    (edges : List CandidateEdge) : Except Failure CompleteNetwork := do
  let names := centers.map CompleteCenter.center
  let source := 0
  let centerOffset := 1 + people.length
  let sink := centerOffset + centers.length
  let personArcs ← people.mapM fun person => do
    let node ← nodeOf 1 people person
    pure ⟨source, node, 1, 0⟩
  let edgeArcs ← edges.mapM (completeArc people names (completeOrdinaryBound edges))
  let requiredReward := (1 + (edgeArcs.map fun arc => |arc.cost|).sum) * (people.length + 1)
  let nodes ← names.mapM fun name => nodeOf centerOffset names name
  let withPeople := (addArcs emptyGraph personArcs).1
  let withEdges := addArcs withPeople edgeArcs
  let withCenters := addCenterArcs withEdges.1
    ((nodes.zip centers).map fun entry => centerArcs sink requiredReward entry.1 entry.2)
  pure ⟨withCenters.1, withEdges.2, withCenters.2⟩

/-- The number of decisions for a center. -/
def assignedTo (decisions : List AssignmentDecision) (name : String) : ℕ :=
  decisions.countP fun item => item.center = name

/-- The attempt made of the chosen edges. -/
def assembleAttempt (orderedPeople : List String) (orderedCenters : List CompleteCenter)
    (chosen : List CandidateEdge) (required : List Position) (final : Graph) : CompleteAttempt :=
  let selected := sortDecisions lower (chosen.map decision)
  let placed := sortBy lower (selected.map AssignmentDecision.person)
  let staffed := sortBy lower ((orderedCenters.filter fun center =>
    center.minimum ≤ (center.protectedPeople.length + assignedTo selected center.center : ℤ)).map
      CompleteCenter.center)
  let unsatisfied := (required.map fun position =>
    match final.arc? position with
    | some arc => (arc.capacity : ℤ)
    | none => 0).sum
  { decisions := selected
    placedPeople := placed
    staffedCenters := staffed
    unsatisfiedSlots := unsatisfied
    allPeoplePlaced := placed.length == orderedPeople.length }

/-- Place as many people as possible, at the least cost, where no crews are needed. -/
def completeFlowAttempt (fuel : ℕ) (people : List String) (centers : List CompleteCenter)
    (candidates : List CandidateEdge) : Except Failure CompleteAttempt := do
  let orderedPeople := sortBy lower people
  let orderedCenters := sortBy (fun item => lower item.center) centers
  let edges := bestEdges lower orderedPeople (orderedCenters.map CompleteCenter.center) candidates
  let network ← completeNetwork orderedPeople orderedCenters edges
  match saturate 0 (1 + orderedPeople.length + orderedCenters.length) fuel network.graph with
  | none => .error .outOfFuel
  | some final =>
      let chosen := (edges.zip network.slots).filter fun entry =>
        (final.arc? ((indexByName orderedPeople entry.1.person).getD 0 + 1, entry.2)).any
          fun arc => arc.capacity == 0
      pure (assembleAttempt lower orderedPeople orderedCenters (chosen.map Prod.fst)
        network.required final)

variable {candidates : List CandidateEdge} {centers : List CompleteCenter}

/-- More fuel does not change an attempt. -/
theorem completeFlowAttempt_mono {lower : String → String} {fuel more : ℕ} (enough : fuel ≤ more)
    {people : List String} {attempt : CompleteAttempt}
    (finished : completeFlowAttempt lower fuel people centers candidates = .ok attempt) :
    completeFlowAttempt lower more people centers candidates = .ok attempt := by
  simp only [completeFlowAttempt] at finished ⊢
  cases network : completeNetwork (sortBy lower people)
      (sortBy (fun item => lower item.center) centers)
      (bestEdges lower (sortBy lower people)
        ((sortBy (fun item => lower item.center) centers).map CompleteCenter.center) candidates) with
  | error failure => rw [network] at finished; cases finished
  | ok built =>
      rw [network] at finished
      change (match saturate _ _ fuel built.graph with
        | none => _
        | some final => _) = _ at finished
      cases saturated : saturate 0 (1 + (sortBy lower people).length +
          (sortBy (fun item => lower item.center) centers).length) fuel built.graph with
      | none => rw [saturated] at finished; cases finished
      | some final =>
          rw [saturated] at finished
          change (match saturate _ _ more built.graph with
            | none => _
            | some final => _) = _
          rw [saturate_mono enough saturated]
          exact finished

/-- The people placed are those of the decisions. -/
theorem completeFlowAttempt_placed {lower : String → String} {fuel : ℕ} {people : List String}
    {attempt : CompleteAttempt}
    (finished : completeFlowAttempt lower fuel people centers candidates = .ok attempt) :
    attempt.placedPeople = sortBy lower (attempt.decisions.map AssignmentDecision.person) := by
  simp only [completeFlowAttempt] at finished
  cases network : completeNetwork (sortBy lower people)
      (sortBy (fun item => lower item.center) centers)
      (bestEdges lower (sortBy lower people)
        ((sortBy (fun item => lower item.center) centers).map CompleteCenter.center) candidates) with
  | error failure => rw [network] at finished; cases finished
  | ok built =>
      rw [network] at finished
      change (match saturate _ _ fuel built.graph with
        | none => _
        | some final => _) = _ at finished
      cases saturated : saturate 0 (1 + (sortBy lower people).length +
          (sortBy (fun item => lower item.center) centers).length) fuel built.graph with
      | none => rw [saturated] at finished; cases finished
      | some final =>
          rw [saturated] at finished
          obtain rfl := Except.ok.inj finished
          rfl

end Model

end PlantManager.Solver

import PlantManager.Solver.CompleteFlow
import PlantManager.Solver.CrewChoice
import PlantManager.Solver.CoverageScore

/-! # The flow attempt is optimal

`Solver.completeFlowAttempt_optimal`: the attempt places as many people
as any placement that respects the capacities. If some placement of equally many
people fills every place the centers need, so does the attempt, and then with no
more overrides, and at no more rank cost when it has as many.
-/

namespace PlantManager.Solver

open PlantManager.Flow Ranking

section BestEdges

/-- No two edges between the same person and center. -/
def KeysDistinct (edges : List CandidateEdge) : Prop :=
  edges.Pairwise fun first second => ¬ SameKey first second

variable {first second : CandidateEdge}

theorem SameKey.symm (same : SameKey first second) :
    SameKey second first := ⟨same.1.symm, same.2.symm⟩

theorem SameKey.trans {third : CandidateEdge} (same : SameKey first second)
    (also : SameKey second third) : SameKey first third :=
  ⟨same.1.trans also.1, same.2.trans also.2⟩

theorem KeysDistinct.eq {edges : List CandidateEdge} (distinct : KeysDistinct edges)
    (firstMember : first ∈ edges) (secondMember : second ∈ edges) (same : SameKey first second) :
    first = second := by
  by_contra different
  have symmetric : Std.Symm fun first second : CandidateEdge => ¬ SameKey first second :=
    ⟨fun _ _ apart equal => apart equal.symm⟩
  exact distinct.forall firstMember secondMember different same

/-- Keeping the best edges covers the new edge and everything covered before. -/
theorem keepBest_spec {best : List CandidateEdge} (distinct : KeysDistinct best)
    (edge : CandidateEdge) :
    (∀ other ∈ keepBest best edge, other = edge ∨ other ∈ best) ∧
      (∃ other ∈ keepBest best edge, SameKey other edge ∧ edgeRank other ≤ edgeRank edge) ∧
      (∀ old ∈ best, ∃ other ∈ keepBest best edge, SameKey other old ∧
        edgeRank other ≤ edgeRank old) ∧
      KeysDistinct (keepBest best edge) := by
  unfold keepBest
  cases found : best.find? fun other => SameKey other edge with
  | none =>
      have absent : ∀ other ∈ best, ¬ SameKey other edge := by
        intro other member same
        have missing := List.find?_eq_none.mp found other member
        exact missing (decide_eq_true same)
      refine ⟨fun other member => ?_, ⟨edge, ?_, ⟨rfl, rfl⟩, le_rfl⟩, fun old member => ?_, ?_⟩
      · rcases List.mem_append.mp member with old | new
        · exact Or.inr old
        · exact Or.inl (List.mem_singleton.mp new)
      · exact List.mem_append_right _ List.mem_cons_self
      · exact ⟨old, List.mem_append_left _ member, ⟨rfl, rfl⟩, le_rfl⟩
      · refine List.pairwise_append.mpr ⟨distinct, List.pairwise_singleton _ _, ?_⟩
        intro other member new isNew
        obtain rfl := List.mem_singleton.mp isNew
        exact absent other member
  | some current =>
      have inBest := List.mem_of_find?_eq_some found
      have same : SameKey current edge := by
        have holds := List.find?_some found
        exact of_decide_eq_true holds
      dsimp only
      by_cases better : edgeRank edge < edgeRank current
      · rw [if_pos better]
        refine ⟨fun other member => ?_, ⟨edge, ?_, ⟨rfl, rfl⟩, le_rfl⟩, fun old member => ?_, ?_⟩
        · obtain ⟨old, inside, rfl⟩ := List.mem_map.mp member
          split
          · exact Or.inl rfl
          · exact Or.inr inside
        · exact List.mem_map.mpr ⟨current, inBest, if_pos same⟩
        · by_cases replaced : SameKey old edge
          · refine ⟨edge, List.mem_map.mpr ⟨old, member, if_pos replaced⟩, replaced.symm, ?_⟩
            rw [distinct.eq member inBest (replaced.trans same.symm)]
            exact better.le
          · exact ⟨old, List.mem_map.mpr ⟨old, member, if_neg replaced⟩, ⟨rfl, rfl⟩, le_rfl⟩
        · refine List.pairwise_map.mpr (distinct.imp fun {first second} different => ?_)
          split
          · rename_i firstSame
            split
            · rename_i secondSame
              exact absurd (firstSame.trans secondSame.symm) different
            · rename_i secondDifferent
              exact fun equal => secondDifferent equal.symm
          · rename_i firstDifferent
            split
            · exact fun equal => firstDifferent equal
            · exact different
      · rw [if_neg better]
        exact ⟨fun other member => Or.inr member,
          ⟨current, inBest, same, not_lt.mp better⟩,
          fun old member => ⟨old, member, ⟨rfl, rfl⟩, le_rfl⟩, distinct⟩

theorem foldl_keepBest_spec (added : List CandidateEdge) :
    ∀ best : List CandidateEdge, KeysDistinct best →
      (∀ other ∈ added.foldl keepBest best, other ∈ added ∨ other ∈ best) ∧
      (∀ edge ∈ added ++ best, ∃ other ∈ added.foldl keepBest best, SameKey other edge ∧
        edgeRank other ≤ edgeRank edge) ∧
      KeysDistinct (added.foldl keepBest best) := by
  induction added with
  | nil => exact fun best distinct => ⟨fun _ member => Or.inr member,
      fun edge member => ⟨edge, member, ⟨rfl, rfl⟩, le_rfl⟩, distinct⟩
  | cons edge rest ih =>
      intro best distinct
      obtain ⟨origin, new, old, kept⟩ := keepBest_spec distinct edge
      obtain ⟨inside, covered, final⟩ := ih (keepBest best edge) kept
      refine ⟨fun other member => ?_, fun other member => ?_, final⟩
      · rcases inside other member with later | earlier
        · exact Or.inl (List.mem_cons_of_mem _ later)
        · rcases origin other earlier with rfl | before
          · exact Or.inl List.mem_cons_self
          · exact Or.inr before
      · have through : ∀ middle ∈ keepBest best edge, SameKey middle other →
            edgeRank middle ≤ edgeRank other →
            ∃ last ∈ rest.foldl keepBest (keepBest best edge), SameKey last other ∧
              edgeRank last ≤ edgeRank other := by
          intro middle present same below
          obtain ⟨last, there, lastSame, lastBelow⟩ :=
            covered middle (List.mem_append_right _ present)
          exact ⟨last, there, lastSame.trans same, lastBelow.trans below⟩
        rcases List.mem_append.mp member with isAdded | before
        · rcases List.mem_cons.mp isAdded with rfl | later
          · obtain ⟨middle, present, same, below⟩ := new
            exact through middle present same below
          · exact covered other (List.mem_append_left _ later)
        · obtain ⟨middle, present, same, below⟩ := old other before
          exact through middle present same below

variable {lower : String → String} {people centers : List String} {candidates : List CandidateEdge}

theorem mem_bestEdges {edge : CandidateEdge}
    (member : edge ∈ bestEdges lower people centers candidates) :
    edge ∈ candidates ∧ edge.person ∈ people ∧ edge.center ∈ centers := by
  have inside := (foldl_keepBest_spec _ [] List.Pairwise.nil).1 edge member
  simpa [and_assoc] using inside

theorem exists_bestEdge {edge : CandidateEdge} (member : edge ∈ candidates)
    (person : edge.person ∈ people) (center : edge.center ∈ centers) :
    ∃ other ∈ bestEdges lower people centers candidates, SameKey other edge ∧
      edgeRank other ≤ edgeRank edge :=
  (foldl_keepBest_spec _ [] List.Pairwise.nil).2.1 edge (by simp [member, person, center])

end BestEdges

/-- Different people, different centers, and costs that are not negative. -/
structure FlowProblem (people : List String) (centers : List CompleteCenter)
    (candidates : List CandidateEdge) : Prop where
  peopleDistinct : people.Nodup
  centersDistinct : (centers.map CompleteCenter.center).Nodup
  nonneg : ∀ edge ∈ candidates, 0 ≤ edge.rankCost

/-- The number of chosen edges for a center. -/
def loadAt (chosen : List CandidateEdge) (name : String) : ℕ :=
  chosen.countP fun edge => edge.center = name

/-- The people a center takes besides those protected. -/
def CompleteCenter.places (center : CompleteCenter) : ℕ :=
  center.remainingMinimum.toNat +
    (max 0 (center.remainingCapacity - center.remainingMinimum)).toNat

/-- Candidates that place different people within the capacities of the centers. -/
structure FlowChoice (people : List String) (centers : List CompleteCenter)
    (candidates chosen : List CandidateEdge) : Prop where
  candidate : chosen ⊆ candidates
  person : ∀ edge ∈ chosen, edge.person ∈ people
  center : ∀ edge ∈ chosen, edge.center ∈ centers.map CompleteCenter.center
  people : (chosen.map CandidateEdge.person).Nodup
  within : ∀ center ∈ centers, loadAt chosen center.center ≤ center.places

/-- Every place that a center needs is filled. -/
def Filled (centers : List CompleteCenter) (chosen : List CandidateEdge) : Prop :=
  ∀ center ∈ centers, center.remainingMinimum.toNat ≤ loadAt chosen center.center

/-- The needed places that a choice fills. -/
def filledSlots (centers : List CompleteCenter) (chosen : List CandidateEdge) : ℤ :=
  (centers.map fun center => min center.remainingMinimum (loadAt chosen center.center : ℤ)).sum

/-- A choice fills every place that the centers need when it fills all together. -/
theorem filled_iff_filledSlots {centers : List CompleteCenter} {chosen : List CandidateEdge} :
    Filled centers chosen ↔
      (centers.map CompleteCenter.remainingMinimum).sum ≤ filledSlots centers chosen := by
  unfold Filled filledSlots
  induction centers with
  | nil => simp
  | cons center rest ih =>
      have bounded : (rest.map fun other =>
          min other.remainingMinimum (loadAt chosen other.center : ℤ)).sum ≤
          (rest.map CompleteCenter.remainingMinimum).sum :=
        List.sum_le_sum fun other _ => min_le_left _ _
      rw [List.forall_mem_cons, ih, List.map_cons, List.map_cons, List.sum_cons, List.sum_cons]
      omega

theorem filledSlots_perm {centers others : List CompleteCenter} (same : centers.Perm others)
    (chosen : List CandidateEdge) : filledSlots centers chosen = filledSlots others chosen :=
  (same.map _).sum_eq

section Offers

variable {people : List String} {centers : List CompleteCenter} {edges : List CandidateEdge}

/-- The total weight of the edges, as the reward counts it. -/
def requiredReward (people : ℕ) (costs : List ℤ) : ℤ := (1 + (costs.map abs).sum) * (people + 1)

/-- The edges as offers of the assignment network. -/
def flowOffers (people : List String) (centers : List CompleteCenter) (edges : List CandidateEdge)
    (known : ∀ edge ∈ edges, edge.person ∈ people ∧
      edge.center ∈ centers.map CompleteCenter.center) : Offers CandidateEdge where
  people := people.length
  centers := centers.length
  items := edges
  person := fun edge => (indexByName people edge.person).getD 0
  center := fun edge => (indexByName (centers.map CompleteCenter.center) edge.center).getD 0
  weight := fun edge => completeCost people.length (centers.map CompleteCenter.center).length
    (completeOrdinaryBound edges) ((indexByName people edge.person).getD 0)
    ((indexByName (centers.map CompleteCenter.center) edge.center).getD 0) edge
  person_lt := by
    intro edge member
    obtain ⟨index, found, below⟩ := exists_indexByName (known edge member).1
    rwa [found]
  center_lt := by
    intro edge member
    obtain ⟨index, found, below⟩ := exists_indexByName (known edge member).2
    rwa [found, ← List.length_map CompleteCenter.center]

/-- The places at the center with this index that have to be filled. -/
def requiredAt (centers : List CompleteCenter) (index : ℕ) : ℕ :=
  (centers.getD index default).remainingMinimum.toNat

/-- The further places at the center with this index. -/
def extraAt (centers : List CompleteCenter) (index : ℕ) : ℕ :=
  (max 0 ((centers.getD index default).remainingCapacity -
    (centers.getD index default).remainingMinimum)).toNat

theorem centers_eq_map_range (centers : List CompleteCenter) :
    centers = (List.range centers.length).map fun index => centers.getD index default := by
  apply List.ext_getElem
  · simp
  · intro index bound _
    simp [bound]

theorem addCenterArcs_graph (graph : Graph) (pairs : List (ArcSpec × ArcSpec)) :
    (addCenterArcs graph pairs).1 =
      (addArcs graph (pairs.flatMap fun pair => [pair.1, pair.2])).1 := by
  induction pairs generalizing graph with
  | nil => rfl
  | cons pair rest ih => exact ih _

variable (known : ∀ edge ∈ edges, edge.person ∈ people ∧
  edge.center ∈ centers.map CompleteCenter.center)

/-- The transport network of a flow attempt. -/
abbrev flowTransport : Transport :=
  (flowOffers people centers edges known).tieredTransport (requiredAt centers) (extraAt centers)
    (requiredReward people.length (edges.map (flowOffers people centers edges known).weight))

theorem personArcs_flow (distinct : people.Nodup) :
    people.mapM (fun person => do
        let node ← nodeOf 1 people person
        pure (⟨0, node, 1, 0⟩ : ArcSpec)) = .ok (flowTransport known).personArcs := by
  rw [mapM_nodeOf distinct 1 fun node => (⟨0, node, 1, 0⟩ : ArcSpec)]
  congr 1
  exact List.map_congr_left fun index _ => by rw [Nat.add_comm]

theorem edgeArcs_flow :
    edges.mapM (completeArc people (centers.map CompleteCenter.center)
        (completeOrdinaryBound edges)) = .ok (flowTransport known).edgeArcs := by
  rw [mapM_ok fun edge => ⟨(flowOffers people centers edges known).person edge + 1,
    1 + people.length + (flowOffers people centers edges known).center edge, 1,
    (flowOffers people centers edges known).weight edge⟩]
  · simp [Transport.edgeArcs, Offers.transport, flowOffers]
  · intro edge member
    unfold completeArc
    rw [nodeOf_ok (known edge member).1, nodeOf_ok (known edge member).2, Nat.zero_add,
      Nat.zero_add]
    rfl

theorem sinkArcs_flow (reward : ℤ)
    (same : reward = requiredReward people.length
      (edges.map (flowOffers people centers edges known).weight)) :
    ((((List.range centers.length).map fun index => 1 + people.length + index).zip centers).map
        fun entry => centerArcs (1 + people.length + centers.length) reward entry.1 entry.2).flatMap
      (fun pair => [pair.1, pair.2]) = (flowTransport known).sinkArcs := by
  have zipped : (((List.range centers.length).map fun index => 1 + people.length + index).zip
      centers) = (List.range centers.length).map fun index =>
        (1 + people.length + index, centers.getD index default) := by
    conv_lhs => rw [centers_eq_map_range centers]
    rw [List.length_map, List.length_range, List.zip_map']
  rw [zipped, List.map_map, List.flatMap_map]
  change _ = List.map _ (List.flatMap _ (List.range centers.length))
  rw [List.map_flatMap, same]
  rfl

/-- The network built is the one with required places. -/
theorem completeNetwork_eq (peopleDistinct : people.Nodup)
    (centersDistinct : (centers.map CompleteCenter.center).Nodup) :
    ∃ required, completeNetwork people centers edges = .ok
      ⟨(addArcs (addArcs (addArcs emptyGraph (flowTransport known).personArcs).1
          (flowTransport known).edgeArcs).1 (flowTransport known).sinkArcs).1,
        (addArcs (addArcs emptyGraph (flowTransport known).personArcs).1
          (flowTransport known).edgeArcs).2, required⟩ := by
  have costs : (1 + ((flowTransport known).edgeArcs.map fun arc => |arc.cost|).sum) *
      ((people.length : ℤ) + 1) = requiredReward people.length
        (edges.map (flowOffers people centers edges known).weight) := by
    simp [requiredReward, Transport.edgeArcs, Offers.transport, flowOffers, Function.comp_def]
  have sinks := sinkArcs_flow known _ costs
  have nodes := mapM_nodeOf centersDistinct (1 + people.length) fun node => node
  simp only [bind_pure, List.length_map] at nodes
  unfold completeNetwork
  simp only [personArcs_flow known peopleDistinct, edgeArcs_flow known, nodes]
  refine ⟨?_, ?_⟩
  case refine_2 =>
    rw [← sinks, ← addCenterArcs_graph]
    rfl

section Choice

variable {chosen : List CandidateEdge}

theorem load_flowOffers (centersDistinct : (centers.map CompleteCenter.center).Nodup)
    (inside : ∀ edge ∈ chosen, edge.center ∈ centers.map CompleteCenter.center) {index : ℕ}
    (bound : index < centers.length) :
    (flowOffers people centers edges known).load chosen index =
      loadAt chosen centers[index].center := by
  have counted := countP_indexByName centersDistinct inside
    (by rwa [List.length_map] : index < (centers.map CompleteCenter.center).length)
  rw [List.getElem_map] at counted
  exact counted

theorem requiredAt_eq {index : ℕ} (bound : index < centers.length) :
    requiredAt centers index = centers[index].remainingMinimum.toNat := by
  simp [requiredAt, bound]

theorem places_eq {index : ℕ} (bound : index < centers.length) :
    requiredAt centers index + extraAt centers index = centers[index].places := by
  simp [requiredAt, extraAt, CompleteCenter.places, bound]

theorem admissible_iff_flowChoice (centersDistinct : (centers.map CompleteCenter.center).Nodup) :
    (flowOffers people centers edges known).Admissible
        (fun index => requiredAt centers index + extraAt centers index) chosen ↔
      FlowChoice people centers edges chosen := by
  constructor
  · intro admissible
    have inside : ∀ edge ∈ chosen, edge.person ∈ people ∧
        edge.center ∈ centers.map CompleteCenter.center :=
      fun edge member => known edge (admissible.inside member)
    refine ⟨admissible.inside, fun edge member => (inside edge member).1,
      fun edge member => (inside edge member).2,
      (nodup_map_iff_countP fun edge member => (inside edge member).1).mp admissible.person_le,
      fun center listed => ?_⟩
    obtain ⟨index, bound, rfl⟩ := List.getElem_of_mem listed
    have limited := admissible.load_le index bound
    rwa [load_flowOffers known centersDistinct (fun edge member => (inside edge member).2) bound,
      places_eq bound] at limited
  · intro choice
    refine ⟨⟨choice.candidate, (nodup_map_iff_countP choice.person).mpr choice.people⟩,
      fun index bound => ?_⟩
    have below : index < centers.length := bound
    rw [load_flowOffers known centersDistinct choice.center below, places_eq below]
    exact choice.within _ (List.getElem_mem below)

end Choice

section Weights

/-- The weight of one unit of rank cost. -/
def tieScale (people centers : ℕ) : ℤ := ((people * max 1 centers + 1) * (people + 1) : ℕ)

theorem completeCost_eq (people centers : ℕ) (ordinaryBound : ℤ) {personRank centerRank : ℕ}
    (personBound : personRank < people) (centerBound : centerRank < centers) (edge : CandidateEdge) :
    ∃ tie : ℤ, 0 ≤ tie ∧ tie < people * max 1 centers + 1 ∧
      completeCost people centers ordinaryBound personRank centerRank edge =
        primaryCost ordinaryBound edge * tieScale people centers + tie := by
  refine ⟨centerRank * max 1 people + personRank, by positivity, ?_, ?_⟩
  · have onePeople : max 1 people = people := max_eq_right (by omega)
    have oneCenters : max 1 centers = centers := max_eq_right (by omega)
    have natural : centerRank * max 1 people + personRank < people * max 1 centers + 1 := by
      nlinarith
    exact_mod_cast natural
  · unfold completeCost tieScale
    rw [max_eq_right (Nat.le_add_left 1 _)]
    rfl

variable (nonneg : ∀ edge ∈ edges, 0 ≤ edge.rankCost)

include nonneg

/-- The weight of a choice: overrides, rank cost and ties, each scaled above the next. -/
theorem exists_total_flowOffers {chosen : List CandidateEdge} (inside : chosen ⊆ edges) :
    ∃ tie : ℤ, 0 ≤ tie ∧ tie ≤ chosen.length * (people.length * max 1 centers.length + 1) ∧
      (flowOffers people centers edges known).total chosen =
        ((overrideCount (chosen.map decision) : ℤ) * completeOrdinaryBound edges +
          totalRankCost (chosen.map decision)) * tieScale people.length centers.length + tie := by
  rw [overrideCount_map, totalRankCost_map]
  induction chosen with
  | nil => exact ⟨0, by simp [Offers.total]⟩
  | cons edge rest ih =>
      obtain ⟨member, later⟩ := List.cons_subset.mp inside
      obtain ⟨tie, tieNonneg, tieLe, total⟩ := ih later
      obtain ⟨own, ownNonneg, ownLt, cost⟩ := completeCost_eq people.length centers.length
        (completeOrdinaryBound edges)
        ((flowOffers people centers edges known).person_lt edge member)
        ((flowOffers people centers edges known).center_lt edge member) edge
      refine ⟨own + tie, by omega, ?_, ?_⟩
      · rw [List.length_cons, Nat.cast_succ, add_one_mul]
        linarith
      · have weight : (flowOffers people centers edges known).weight edge =
            primaryCost (completeOrdinaryBound edges) edge *
              tieScale people.length centers.length + own := by
          rw [← cost]
          simp only [flowOffers, List.length_map]
        have whole : (flowOffers people centers edges known).total (edge :: rest) =
            (flowOffers people centers edges known).weight edge +
              (flowOffers people centers edges known).total rest := List.sum_cons
        rw [whole, weight, total, primaryCost, max_eq_right (nonneg edge member), List.map_cons,
          List.map_cons, List.sum_cons, List.sum_cons]
        ring

omit nonneg in
theorem sum_le_of_nodup_subset {weight : CandidateEdge → ℤ} {chosen : List CandidateEdge}
    (nodup : chosen.Nodup) (inside : chosen ⊆ edges) (weightNonneg : ∀ edge ∈ edges, 0 ≤ weight edge) :
    (chosen.map weight).sum ≤ (edges.map weight).sum := by
  obtain ⟨arranged, perm, sublist⟩ := nodup.subperm inside
  rw [← (perm.map weight).sum_eq]
  refine (sublist.map weight).sum_le_sum fun value member => ?_
  obtain ⟨edge, listed, rfl⟩ := List.mem_map.mp member
  exact weightNonneg edge listed

/-- The rank cost of a choice stays below the weight of one override. -/
theorem totalRankCost_lt_ordinaryBound {chosen : List CandidateEdge} (nodup : chosen.Nodup)
    (inside : chosen ⊆ edges) :
    0 ≤ totalRankCost (chosen.map decision) ∧
      totalRankCost (chosen.map decision) < completeOrdinaryBound edges := by
  rw [totalRankCost_map]
  constructor
  · refine List.sum_nonneg fun cost member => ?_
    obtain ⟨edge, listed, rfl⟩ := List.mem_map.mp member
    exact nonneg edge (inside listed)
  · have below := sum_le_of_nodup_subset nodup inside nonneg
    have each : (edges.map CandidateEdge.rankCost).sum ≤
        (edges.map fun edge => max 0 edge.rankCost + edge.overrideCost).sum := by
      refine List.sum_le_sum fun edge _ => ?_
      unfold CandidateEdge.overrideCost
      split <;> omega
    unfold completeOrdinaryBound
    omega

theorem weight_nonneg {edge : CandidateEdge} (member : edge ∈ edges) :
    0 ≤ (flowOffers people centers edges known).weight edge := by
  obtain ⟨own, ownNonneg, -, cost⟩ := completeCost_eq people.length centers.length
    (completeOrdinaryBound edges)
    ((flowOffers people centers edges known).person_lt edge member)
    ((flowOffers people centers edges known).center_lt edge member) edge
  have weight : (flowOffers people centers edges known).weight edge =
      primaryCost (completeOrdinaryBound edges) edge *
        tieScale people.length centers.length + own := by
    rw [← cost]
    simp only [flowOffers, List.length_map]
  have boundNonneg : 0 ≤ completeOrdinaryBound edges :=
    ((totalRankCost_lt_ordinaryBound nonneg List.nodup_nil (List.nil_subset _)).1.trans_lt
      (totalRankCost_lt_ordinaryBound nonneg List.nodup_nil (List.nil_subset _)).2).le
  have primary : 0 ≤ primaryCost (completeOrdinaryBound edges) edge := by
    unfold primaryCost CandidateEdge.overrideCost
    split
    · rw [one_mul]; positivity
    · rw [zero_mul, zero_add]; exact le_max_left _ _
  rw [weight]
  have scale : 0 ≤ tieScale people.length centers.length := Int.natCast_nonneg _
  positivity

/-- The reward of one filled place outweighs every choice of edges. -/
theorem total_lt_requiredReward {chosen : List CandidateEdge} (nodup : chosen.Nodup)
    (inside : chosen ⊆ edges) :
    0 ≤ (flowOffers people centers edges known).total chosen ∧
      (flowOffers people centers edges known).total chosen <
        requiredReward people.length (edges.map (flowOffers people centers edges known).weight) := by
  have weights : ∀ edge ∈ edges, 0 ≤ (flowOffers people centers edges known).weight edge :=
    fun edge member => weight_nonneg known nonneg member
  constructor
  · refine List.sum_nonneg fun value member => ?_
    obtain ⟨edge, listed, rfl⟩ := List.mem_map.mp member
    exact weights edge (inside listed)
  · have below := sum_le_of_nodup_subset nodup inside weights
    have absolute : (edges.map (flowOffers people centers edges known).weight).sum =
        ((edges.map (flowOffers people centers edges known).weight).map abs).sum := by
      rw [List.map_map]
      congr 1
      exact List.map_congr_left fun edge member => (abs_of_nonneg (weights edge member)).symm
    have sumNonneg : 0 ≤ ((edges.map (flowOffers people centers edges known).weight).map abs).sum :=
      List.sum_nonneg fun value member => by
        obtain ⟨other, -, rfl⟩ := List.mem_map.mp member
        exact abs_nonneg other
    unfold requiredReward Offers.total
    nlinarith [Int.natCast_nonneg people.length]

omit nonneg in
theorem fill_flowOffers (centersDistinct : (centers.map CompleteCenter.center).Nodup)
    {chosen : List CandidateEdge}
    (inside : ∀ edge ∈ chosen, edge.center ∈ centers.map CompleteCenter.center) :
    (flowOffers people centers edges known).fill (requiredAt centers) chosen =
      filledSlots centers chosen := by
  unfold filledSlots
  conv_rhs => rw [centers_eq_map_range centers, List.map_map]
  refine Finset.sum_congr rfl fun index member => ?_
  have bound : index < centers.length := Finset.mem_range.mp member
  have nonnegative : 0 ≤ centers[index].remainingMinimum := le_max_left _ _
  rw [load_flowOffers known centersDistinct inside bound, requiredAt_eq bound]
  simp only [Function.comp_apply, List.getD_eq_getElem?_getD, bound, List.getElem?_eq_getElem,
    Option.getD_some, Int.toNat_of_nonneg nonnegative]

/-- What the reward settles: the best choice of its size fills as many places as any
other, and then weight decides. -/
theorem slots_of_best {chosen other : List CandidateEdge}
    (nodup : chosen.Nodup) (inside : chosen ⊆ edges) (otherNodup : other.Nodup)
    (otherInside : other ⊆ edges)
    (best : (flowOffers people centers edges known).total chosen -
        requiredReward people.length (edges.map (flowOffers people centers edges known).weight) *
          (flowOffers people centers edges known).fill (requiredAt centers) chosen ≤
      (flowOffers people centers edges known).total other -
        requiredReward people.length (edges.map (flowOffers people centers edges known).weight) *
          (flowOffers people centers edges known).fill (requiredAt centers) other) :
    (flowOffers people centers edges known).fill (requiredAt centers) other ≤
        (flowOffers people centers edges known).fill (requiredAt centers) chosen ∧
      ((flowOffers people centers edges known).fill (requiredAt centers) other =
          (flowOffers people centers edges known).fill (requiredAt centers) chosen →
        (flowOffers people centers edges known).total chosen ≤
          (flowOffers people centers edges known).total other) := by
  obtain ⟨totalNonneg, -⟩ := total_lt_requiredReward known nonneg nodup inside
  obtain ⟨otherNonneg, otherLt⟩ := total_lt_requiredReward known nonneg otherNodup otherInside
  constructor
  · by_contra more
    have gap : requiredReward people.length
          (edges.map (flowOffers people centers edges known).weight) * 1 ≤
        requiredReward people.length (edges.map (flowOffers people centers edges known).weight) *
          ((flowOffers people centers edges known).fill (requiredAt centers) other -
            (flowOffers people centers edges known).fill (requiredAt centers) chosen) :=
      mul_le_mul_of_nonneg_left (by omega) (by linarith)
    linarith
  · intro same
    rw [same] at best
    linarith

end Weights

end Offers

section Representatives

theorem lex_add_add_le {first second third fourth fifth sixth seventh eighth : ℤ}
    (left : toLex (first, second) ≤ toLex (third, fourth))
    (right : toLex (fifth, sixth) ≤ toLex (seventh, eighth)) :
    toLex (first + fifth, second + sixth) ≤ toLex (third + seventh, fourth + eighth) := by
  simp only [Prod.Lex.toLex_le_toLex] at left right ⊢
  omega

/-- Better edges one by one make a better choice. -/
theorem costs_map_le {chosen : List CandidateEdge} {better : CandidateEdge → CandidateEdge}
    (betterNonneg : ∀ edge ∈ chosen, 0 ≤ (better edge).rankCost)
    (nonneg : ∀ edge ∈ chosen, 0 ≤ edge.rankCost)
    (below : ∀ edge ∈ chosen, edgeRank (better edge) ≤ edgeRank edge) :
    toLex (overrideCount ((chosen.map better).map decision),
        totalRankCost ((chosen.map better).map decision)) ≤
      toLex (overrideCount (chosen.map decision), totalRankCost (chosen.map decision)) := by
  have integers : toLex (((chosen.map better).map CandidateEdge.overrideCost).sum,
        ((chosen.map better).map CandidateEdge.rankCost).sum) ≤
      toLex ((chosen.map CandidateEdge.overrideCost).sum,
        (chosen.map CandidateEdge.rankCost).sum) := by
    induction chosen with
    | nil => exact le_rfl
    | cons edge rest ih =>
        have tail := ih (fun other member => betterNonneg other (List.mem_cons_of_mem _ member))
          (fun other member => nonneg other (List.mem_cons_of_mem _ member))
          fun other member => below other (List.mem_cons_of_mem _ member)
        have head := below edge List.mem_cons_self
        unfold edgeRank at head
        rw [max_eq_right (betterNonneg edge List.mem_cons_self),
          max_eq_right (nonneg edge List.mem_cons_self)] at head
        exact lex_add_add_le head tail
  rw [← overrideCount_map, ← overrideCount_map, ← totalRankCost_map, ← totalRankCost_map] at integers
  simp only [Prod.Lex.toLex_le_toLex] at integers ⊢
  omega

end Representatives

section Attempt

variable {lower : String → String} {people : List String} {centers : List CompleteCenter}
  {candidates : List CandidateEdge}

/-- The attempt places its selection: as many people as possible, and among those
placements a best one. -/
theorem completeFlowAttempt_selection {ordered : List String}
    (samePeople : sortBy lower people = ordered) {orderedCenters : List CompleteCenter}
    (sameCenters : sortBy (fun item => lower item.center) centers = orderedCenters)
    (peopleDistinct : ordered.Nodup)
    (centersDistinct : (orderedCenters.map CompleteCenter.center).Nodup)
    {edges : List CandidateEdge} (sameEdges : bestEdges lower ordered
      (orderedCenters.map CompleteCenter.center) candidates = edges)
    (known : ∀ edge ∈ edges, edge.person ∈ ordered ∧
      edge.center ∈ orderedCenters.map CompleteCenter.center) :
    ∃ chosen attempt, (∀ᶠ fuel in Filter.atTop,
        completeFlowAttempt lower fuel people centers candidates = .ok attempt) ∧
      attempt.decisions = sortDecisions lower (chosen.map decision) ∧
      FlowChoice ordered orderedCenters edges chosen ∧
      ∀ other, FlowChoice ordered orderedCenters edges other → other.length ≤ chosen.length ∧
        (other.length = chosen.length →
          (flowOffers ordered orderedCenters edges known).total chosen -
              requiredReward ordered.length
                (edges.map (flowOffers ordered orderedCenters edges known).weight) *
              (flowOffers ordered orderedCenters edges known).fill (requiredAt orderedCenters)
                chosen ≤
            (flowOffers ordered orderedCenters edges known).total other -
              requiredReward ordered.length
                (edges.map (flowOffers ordered orderedCenters edges known).weight) *
              (flowOffers ordered orderedCenters edges known).fill (requiredAt orderedCenters)
                other) := by
  let offers := flowOffers ordered orderedCenters edges known
  let withPeople := (addArcs emptyGraph (flowTransport known).personArcs).1
  let withEdges := addArcs withPeople (flowTransport known).edgeArcs
  let withCenters := (addArcs withEdges.1 (flowTransport known).sinkArcs).1
  have rewarding : 0 ≤ requiredReward ordered.length (edges.map offers.weight) := by
    have sumNonneg : 0 ≤ ((edges.map offers.weight).map abs).sum :=
      List.sum_nonneg fun value member => by
        obtain ⟨other, -, rfl⟩ := List.mem_map.mp member
        exact abs_nonneg other
    unfold requiredReward
    positivity
  obtain ⟨saturated, reached, admissible, best⟩ := tiered_assignment_optimal offers rewarding
    (rfl : withPeople = _) (rfl : withEdges = _) (rfl : withCenters = _)
  obtain ⟨required, network⟩ := completeNetwork_eq known peopleDistinct centersDistinct
  refine ⟨offers.selection withEdges.2 saturated, assembleAttempt lower ordered orderedCenters
    (offers.selection withEdges.2 saturated) required saturated,
    reached.mono fun fuel finished => ?_, rfl,
    (admissible_iff_flowChoice known centersDistinct).mp admissible, fun other choice =>
      best other ((admissible_iff_flowChoice known centersDistinct).mpr choice)⟩
  unfold completeFlowAttempt
  simp only [samePeople, sameCenters, sameEdges, network, bind, Except.bind]
  split
  · next failed => cases failed.symm.trans finished
  · next final same =>
      obtain rfl := Option.some.inj (finished.symm.trans same)
      rfl

/-- The order of people and centers does not matter, nor do candidates left out. -/
theorem FlowChoice.mono {otherPeople : List String} {others : List CompleteCenter}
    {more chosen : List CandidateEdge} (choice : FlowChoice people centers candidates chosen)
    (samePeople : people.Perm otherPeople) (sameCenters : centers.Perm others)
    (inside : chosen ⊆ more) : FlowChoice otherPeople others more chosen where
  candidate := inside
  person := fun edge member => samePeople.mem_iff.mp (choice.person edge member)
  center := fun edge member => (sameCenters.map _).mem_iff.mp (choice.center edge member)
  people := choice.people
  within := fun center listed => choice.within center (sameCenters.mem_iff.mpr listed)

/-- A choice places at most everybody. -/
theorem FlowChoice.length_le {chosen : List CandidateEdge}
    (choice : FlowChoice people centers candidates chosen) : chosen.length ≤ people.length := by
  rw [← List.length_map CandidateEdge.person]
  refine (choice.people.subperm fun name member => ?_).length_le
  obtain ⟨edge, inside, rfl⟩ := List.mem_map.mp member
  exact choice.person edge inside

theorem FlowChoice.nodup {chosen : List CandidateEdge}
    (choice : FlowChoice people centers candidates chosen) : chosen.Nodup :=
  choice.people.of_map _

/-- Every choice has one among the best edges that is no worse. -/
theorem FlowChoice.exists_best {chosen : List CandidateEdge}
    (nonneg : ∀ edge ∈ candidates, 0 ≤ edge.rankCost)
    (choice : FlowChoice people centers candidates chosen) :
    ∃ better, FlowChoice people centers
        (bestEdges lower people (centers.map CompleteCenter.center) candidates) better ∧
      better.length = chosen.length ∧ (∀ name, loadAt better name = loadAt chosen name) ∧
      toLex (overrideCount (better.map decision), totalRankCost (better.map decision)) ≤
        toLex (overrideCount (chosen.map decision), totalRankCost (chosen.map decision)) := by
  have representative : ∀ edge, ∃ other, edge ∈ chosen →
      other ∈ bestEdges lower people (centers.map CompleteCenter.center) candidates ∧
        SameKey other edge ∧ edgeRank other ≤ edgeRank edge := by
    intro edge
    by_cases member : edge ∈ chosen
    · obtain ⟨other, best⟩ := exists_bestEdge (choice.candidate member)
        (choice.person edge member) (choice.center edge member)
      exact ⟨other, fun _ => best⟩
    · exact ⟨edge, fun present => absurd present member⟩
  choose better spec using representative
  have persons : (chosen.map better).map CandidateEdge.person =
      chosen.map CandidateEdge.person := by
    rw [List.map_map]
    exact List.map_congr_left fun edge member => (spec edge member).2.1.1
  have loads : ∀ name, loadAt (chosen.map better) name = loadAt chosen name := by
    intro name
    unfold loadAt
    rw [List.countP_map]
    exact List.countP_congr fun edge member => by simp [(spec edge member).2.1.2]
  refine ⟨chosen.map better, ⟨fun other member => ?_, fun other member => ?_,
    fun other member => ?_, persons ▸ choice.people, fun center listed => ?_⟩,
    List.length_map _, loads, costs_map_le (fun edge member => ?_) (fun edge member => ?_)
      fun edge member => (spec edge member).2.2⟩
  · obtain ⟨edge, inside, rfl⟩ := List.mem_map.mp member
    exact (spec edge inside).1
  · obtain ⟨edge, inside, rfl⟩ := List.mem_map.mp member
    exact (spec edge inside).2.1.1 ▸ choice.person edge inside
  · obtain ⟨edge, inside, rfl⟩ := List.mem_map.mp member
    exact (spec edge inside).2.1.2 ▸ choice.center edge inside
  · rw [loads]
    exact choice.within center listed
  · exact nonneg _ (mem_bestEdges (spec edge member).1).1
  · exact nonneg _ (choice.candidate member)

/-- The ties of a choice stay below one unit of rank cost. -/
theorem tie_lt_tieScale {count people centers : ℕ} (below : count ≤ people) {tie : ℤ}
    (limited : tie ≤ count * (people * max 1 centers + 1)) : tie < tieScale people centers := by
  have product : count * (people * max 1 centers + 1) <
      (people * max 1 centers + 1) * (people + 1) := by
    rw [Nat.mul_comm]
    exact Nat.mul_lt_mul_of_pos_left (by omega) (by omega)
  unfold tieScale
  exact lt_of_le_of_lt limited (by exact_mod_cast product)

/-- The weights of two choices compare their overrides first and then their rank costs. -/
theorem costs_le_of_total_le {edges chosen other : List CandidateEdge}
    (known : ∀ edge ∈ edges, edge.person ∈ people ∧
      edge.center ∈ centers.map CompleteCenter.center)
    (nonneg : ∀ edge ∈ edges, 0 ≤ edge.rankCost)
    (choice : FlowChoice people centers edges chosen)
    (otherChoice : FlowChoice people centers edges other)
    (below : (flowOffers people centers edges known).total chosen ≤
      (flowOffers people centers edges known).total other) :
    toLex (overrideCount (chosen.map decision), totalRankCost (chosen.map decision)) ≤
      toLex (overrideCount (other.map decision), totalRankCost (other.map decision)) := by
  obtain ⟨tie, tieNonneg, tieLe, total⟩ :=
    exists_total_flowOffers known nonneg choice.candidate
  obtain ⟨otherTie, -, otherTieLe, otherTotal⟩ :=
    exists_total_flowOffers known nonneg otherChoice.candidate
  obtain ⟨costNonneg, costLt⟩ :=
    totalRankCost_lt_ordinaryBound nonneg choice.nodup choice.candidate
  obtain ⟨otherCostNonneg, otherCostLt⟩ :=
    totalRankCost_lt_ordinaryBound nonneg otherChoice.nodup otherChoice.candidate
  have otherTieLt := tie_lt_tieScale otherChoice.length_le otherTieLe
  have tieLt := tie_lt_tieScale choice.length_le tieLe
  rw [total, otherTotal] at below
  have compared := lex_of_doubly_scaled_le (by omega) (by omega)
    (abs_lt.mpr ⟨by omega, by omega⟩) below
  simp only [Prod.Lex.toLex_le_toLex] at compared ⊢
  omega

/-- **The flow attempt is the best choice**: it places as many people as any choice,
among the choices of as many fills as many needed places as any, and among those has
costs that are no higher. -/
theorem completeFlowAttempt_best (problem : FlowProblem people centers candidates) :
    ∃ chosen attempt, (∀ᶠ fuel in Filter.atTop,
        completeFlowAttempt lower fuel people centers candidates = .ok attempt) ∧
      attempt.decisions = sortDecisions lower (chosen.map decision) ∧
      FlowChoice people centers candidates chosen ∧
      ∀ other, FlowChoice people centers candidates other → other.length ≤ chosen.length ∧
        (other.length = chosen.length → filledSlots centers other ≤ filledSlots centers chosen ∧
          (filledSlots centers other = filledSlots centers chosen →
            toLex (overrideCount (chosen.map decision), totalRankCost (chosen.map decision)) ≤
              toLex (overrideCount (other.map decision), totalRankCost (other.map decision)))) := by
  have peoplePerm := sortBy_perm lower people
  have centersPerm := sortBy_perm (fun item => lower item.center) centers
  obtain ⟨ordered, samePeople⟩ : ∃ ordered, sortBy lower people = ordered := ⟨_, rfl⟩
  obtain ⟨orderedCenters, sameCenters⟩ : ∃ orderedCenters,
    sortBy (fun item => lower item.center) centers = orderedCenters := ⟨_, rfl⟩
  rw [samePeople] at peoplePerm
  rw [sameCenters] at centersPerm
  have distinct := peoplePerm.nodup_iff.mpr problem.peopleDistinct
  have centersDistinct := (centersPerm.map CompleteCenter.center).nodup_iff.mpr
    problem.centersDistinct
  obtain ⟨edges, sameEdges⟩ : ∃ edges, bestEdges lower ordered
    (orderedCenters.map CompleteCenter.center) candidates = edges := ⟨_, rfl⟩
  have listed : ∀ edge ∈ edges, edge ∈ candidates ∧ edge.person ∈ ordered ∧
      edge.center ∈ orderedCenters.map CompleteCenter.center := by
    intro edge member
    rw [← sameEdges] at member
    exact mem_bestEdges member
  have known := fun edge member => (listed edge member).2
  have nonneg := fun edge member => problem.nonneg edge (listed edge member).1
  obtain ⟨chosen, attempt, reached, decisions, choice, best⟩ := completeFlowAttempt_selection
    samePeople sameCenters distinct centersDistinct sameEdges known
  refine ⟨chosen, attempt, reached, decisions, choice.mono peoplePerm centersPerm
    fun edge member => (listed edge (choice.candidate member)).1, fun other otherChoice => ?_⟩
  obtain ⟨better, betterChoice, sameLength, sameLoads, cheaper⟩ :=
    (otherChoice.mono peoplePerm.symm centersPerm.symm otherChoice.candidate).exists_best
      problem.nonneg
  rw [sameEdges] at betterChoice
  obtain ⟨longest, cheapest⟩ := best better betterChoice
  rw [sameLength] at longest cheapest
  refine ⟨longest, fun asMany => ?_⟩
  have betterSlots : filledSlots orderedCenters better = filledSlots centers other := by
    rw [filledSlots_perm centersPerm]
    unfold filledSlots
    simp only [sameLoads]
  obtain ⟨fuller, below⟩ := slots_of_best known nonneg choice.nodup choice.candidate
    betterChoice.nodup betterChoice.candidate (cheapest asMany)
  rw [fill_flowOffers known centersDistinct betterChoice.center,
    fill_flowOffers known centersDistinct choice.center, betterSlots,
    filledSlots_perm centersPerm] at fuller below
  exact ⟨fuller, fun same =>
    (costs_le_of_total_le known nonneg choice betterChoice (below same)).trans cheaper⟩

/-- **The flow attempt is optimal**: it places as many people as any choice, and when
some choice of as many fills every place needed, so does the attempt, with costs that
are no higher. -/
theorem completeFlowAttempt_optimal (problem : FlowProblem people centers candidates) :
    ∃ chosen attempt, (∀ᶠ fuel in Filter.atTop,
        completeFlowAttempt lower fuel people centers candidates = .ok attempt) ∧
      attempt.decisions = sortDecisions lower (chosen.map decision) ∧
      FlowChoice people centers candidates chosen ∧
      ∀ other, FlowChoice people centers candidates other → other.length ≤ chosen.length ∧
        (other.length = chosen.length → Filled centers other → Filled centers chosen ∧
          toLex (overrideCount (chosen.map decision), totalRankCost (chosen.map decision)) ≤
            toLex (overrideCount (other.map decision), totalRankCost (other.map decision))) := by
  obtain ⟨chosen, attempt, reached, decisions, choice, best⟩ :=
    @completeFlowAttempt_best lower people centers candidates problem
  refine ⟨chosen, attempt, reached, decisions, choice, fun other otherChoice => ?_⟩
  obtain ⟨longest, fullest⟩ := best other otherChoice
  refine ⟨longest, fun asMany filled => ?_⟩
  obtain ⟨fuller, cheaper⟩ := fullest asMany
  rw [filled_iff_filledSlots] at filled ⊢
  have bounded : filledSlots centers chosen ≤
      (centers.map CompleteCenter.remainingMinimum).sum :=
    List.sum_le_sum fun center _ => min_le_left _ _
  exact ⟨filled.trans fuller, cheaper (by omega)⟩

end Attempt

end PlantManager.Solver

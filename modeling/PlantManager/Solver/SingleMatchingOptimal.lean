import PlantManager.Solver.SingleMatching

/-! # The single matching is optimal

`Solver.matchSingleRequirements_optimal`: the matching staffs as many
centers as possible, among those with the fewest overrides, among those at the
least rank cost and, where lower-casing keeps names apart, among those with the
first decisions in order.
-/

namespace PlantManager.Solver

open PlantManager.Flow Ranking

/-- Requirements for different centers, whose candidates are for that center and
have no negative cost. -/
structure SingleProblem (requirements : List CenterRequirement) : Prop where
  distinct : (requirements.map CenterRequirement.center).Nodup
  ownCenter : ∀ requirement ∈ requirements, ∀ edge ∈ requirement.candidates,
    edge.center = requirement.center
  nonneg : ∀ requirement ∈ requirements, ∀ edge ∈ requirement.candidates, 0 ≤ edge.rankCost

/-- Candidates chosen for different people and centers. -/
structure SingleChoice (requirements : List CenterRequirement) (unavailablePeople : Finset String)
    (chosen : List CandidateEdge) : Prop where
  candidate : ∀ edge ∈ chosen, ∃ requirement ∈ requirements, edge ∈ requirement.candidates
  available : ∀ edge ∈ chosen, edge.person ∉ unavailablePeople
  people : (chosen.map CandidateEdge.person).Nodup
  centers : (chosen.map CandidateEdge.center).Nodup

section Offers

variable (lower : String → String) (requirements : List CenterRequirement)
  (unavailablePeople : Finset String)

abbrev singlePeople : List String := edgePeople lower (singleEdges lower requirements unavailablePeople)

variable {lower requirements unavailablePeople}

theorem mem_singleEdges {edge : CandidateEdge} :
    edge ∈ singleEdges lower requirements unavailablePeople ↔
      (∃ requirement ∈ requirements, edge ∈ requirement.candidates) ∧
        edge.person ∉ unavailablePeople := by
  simp only [singleEdges, mem_sortBy, List.mem_flatMap, List.mem_filter,
    decide_eq_true_eq]
  tauto

theorem mem_singlePeople {edge : CandidateEdge}
    (member : edge ∈ singleEdges lower requirements unavailablePeople) :
    edge.person ∈ singlePeople lower requirements unavailablePeople := by
  simp only [singlePeople, edgePeople, mem_sortBy, List.mem_dedup]
  exact List.mem_map_of_mem member

theorem singlePeople_nodup : (singlePeople lower requirements unavailablePeople).Nodup :=
  (sortBy_perm lower _).nodup_iff.mpr (List.nodup_dedup _)

theorem singleCenterNames_perm :
    (singleCenterNames lower requirements).Perm (requirements.map CenterRequirement.center) :=
  (sortBy_perm _ requirements).map _

theorem SingleProblem.names_nodup (problem : SingleProblem requirements) :
    (singleCenterNames lower requirements).Nodup :=
  singleCenterNames_perm.nodup_iff.mpr problem.distinct

theorem SingleProblem.mem_names (problem : SingleProblem requirements) {edge : CandidateEdge}
    (member : edge ∈ singleEdges lower requirements unavailablePeople) :
    edge.center ∈ singleCenterNames lower requirements := by
  obtain ⟨⟨requirement, listed, candidate⟩, -⟩ := mem_singleEdges.mp member
  rw [problem.ownCenter requirement listed edge candidate]
  exact singleCenterNames_perm.mem_iff.mpr (List.mem_map_of_mem listed)

theorem SingleChoice.subset {chosen : List CandidateEdge}
    (choice : SingleChoice requirements unavailablePeople chosen) :
    chosen ⊆ singleEdges lower requirements unavailablePeople := fun edge member =>
  mem_singleEdges.mpr ⟨choice.candidate edge member, choice.available edge member⟩

/-- The available candidates as offers of the assignment network. -/
def SingleProblem.offers (problem : SingleProblem requirements) (lower : String → String)
    (unavailablePeople : Finset String) : Offers CandidateEdge where
  people := (singlePeople lower requirements unavailablePeople).length
  centers := (singleCenterNames lower requirements).length
  items := singleEdges lower requirements unavailablePeople
  person := fun edge =>
    (indexByName (singlePeople lower requirements unavailablePeople) edge.person).getD 0
  center := fun edge => (indexByName (singleCenterNames lower requirements) edge.center).getD 0
  weight := fun edge =>
    singleCost (singlePeople lower requirements unavailablePeople).length
      (singleCenterNames lower requirements).length
      (singleOrdinaryBound (singleEdges lower requirements unavailablePeople))
      ((indexByName (singlePeople lower requirements unavailablePeople) edge.person).getD 0)
      ((indexByName (singleCenterNames lower requirements) edge.center).getD 0) edge
  person_lt := by
    intro edge member
    obtain ⟨index, found, below⟩ := exists_indexByName (mem_singlePeople member)
    rwa [found]
  center_lt := by
    intro edge member
    obtain ⟨index, found, below⟩ := exists_indexByName (problem.mem_names member)
    rwa [found]

variable (problem : SingleProblem requirements)

theorem admissible_iff_singleChoice {chosen : List CandidateEdge} :
    (problem.offers lower unavailablePeople).Admissible (fun _ => 1) chosen ↔
      SingleChoice requirements unavailablePeople chosen := by
  constructor
  · intro admissible
    have member := fun (edge : CandidateEdge) (inside : edge ∈ chosen) =>
      mem_singleEdges.mp (admissible.inside inside)
    refine ⟨fun edge inside => (member edge inside).1, fun edge inside => (member edge inside).2,
      (nodup_map_iff_countP fun edge inside => ?_).mp admissible.person_le,
      (nodup_map_iff_countP fun edge inside => ?_).mp admissible.load_le⟩
    · exact mem_singlePeople (admissible.inside inside)
    · exact problem.mem_names (admissible.inside inside)
  · intro choice
    refine ⟨⟨choice.subset, (nodup_map_iff_countP fun edge inside => ?_).mpr choice.people⟩,
      (nodup_map_iff_countP fun edge inside => ?_).mpr choice.centers⟩
    · exact mem_singlePeople (choice.subset inside)
    · exact problem.mem_names (choice.subset inside)

theorem personArcs_offers :
    (singlePeople lower requirements unavailablePeople).mapM (fun person => do
        let node ← nodeOf 1 (singlePeople lower requirements unavailablePeople) person
        pure (⟨0, node, 1, 0⟩ : ArcSpec)) =
      .ok (problem.offers lower unavailablePeople).unitTransport.personArcs := by
  rw [mapM_nodeOf singlePeople_nodup 1 fun node => (⟨0, node, 1, 0⟩ : ArcSpec)]
  congr 1
  exact List.map_congr_left fun index _ => by rw [Nat.add_comm]

theorem sinkArcs_offers :
    (singleCenterNames lower requirements).mapM (fun center => do
        let node ← nodeOf (1 + (singlePeople lower requirements unavailablePeople).length)
          (singleCenterNames lower requirements) center
        pure (⟨node, 1 + (singlePeople lower requirements unavailablePeople).length +
          (singleCenterNames lower requirements).length, 1, 0⟩ : ArcSpec)) =
      .ok (problem.offers lower unavailablePeople).unitTransport.sinkArcs := by
  rw [mapM_nodeOf problem.names_nodup _ fun node => (⟨node, _, 1, 0⟩ : ArcSpec)]
  simp [Transport.sinkArcs, Offers.transport, Offers.unitSinks, SingleProblem.offers, Transport.sink]

theorem edgeArcs_offers :
    (singleEdges lower requirements unavailablePeople).mapM
        (singleArc (singlePeople lower requirements unavailablePeople)
          (singleCenterNames lower requirements)
          (singleOrdinaryBound (singleEdges lower requirements unavailablePeople))) =
      .ok (problem.offers lower unavailablePeople).unitTransport.edgeArcs := by
  rw [mapM_ok fun edge => ⟨(problem.offers lower unavailablePeople).person edge + 1,
    1 + (singlePeople lower requirements unavailablePeople).length +
      (problem.offers lower unavailablePeople).center edge, 1,
    (problem.offers lower unavailablePeople).weight edge⟩]
  · simp [Transport.edgeArcs, Offers.transport, SingleProblem.offers]
  · intro edge member
    unfold singleArc
    rw [nodeOf_ok (mem_singlePeople member), nodeOf_ok (problem.mem_names member), Nat.zero_add,
      Nat.zero_add]
    rfl

/-- The matching is the selection of the optimal assignment. -/
theorem matchSingleRequirements_selection :
    ∃ chosen, (∀ᶠ fuel in Filter.atTop,
        matchSingleRequirements lower fuel requirements unavailablePeople =
          .ok (sortDecisions lower (chosen.map decision))) ∧
      SingleChoice requirements unavailablePeople chosen ∧
      ∀ other, SingleChoice requirements unavailablePeople other →
        other.length ≤ chosen.length ∧ (other.length = chosen.length →
          (problem.offers lower unavailablePeople).total chosen ≤
            (problem.offers lower unavailablePeople).total other) := by
  let offers := problem.offers lower unavailablePeople
  let people := (addArcs emptyGraph offers.unitTransport.personArcs).1
  let sinks := (addArcs people offers.unitTransport.sinkArcs).1
  let added := addArcs sinks offers.unitTransport.edgeArcs
  obtain ⟨final, reached, admissible, best⟩ :=
    unit_assignment_optimal offers (rfl : people = _) (rfl : sinks = _) (rfl : added = _)
  refine ⟨offers.selection added.2 final, reached.mono fun fuel finished => ?_,
    (admissible_iff_singleChoice problem).mp admissible, fun other choice =>
      best other ((admissible_iff_singleChoice problem).mpr choice)⟩
  have network : singleNetwork (singleCenterNames lower requirements)
      (singlePeople lower requirements unavailablePeople)
      (singleEdges lower requirements unavailablePeople) = .ok added := by
    simp only [singleNetwork, personArcs_offers problem, sinkArcs_offers problem,
      edgeArcs_offers problem]
    rfl
  simp only [matchSingleRequirements, network, bind, Except.bind]
  split
  · next failed => cases failed.symm.trans finished
  · next saturated same =>
      obtain rfl := Option.some.inj (finished.symm.trans same)
      simp only [Offers.selection, List.map_map]
      rfl

end Offers

section Decoding

/-- The chosen edge at a center. -/
def chosenAt (chosen : List CandidateEdge) (name : String) : Option CandidateEdge :=
  chosen.find? fun edge => edge.center = name

/-- One digit for each center: the index of the person there, or the number of
people when the center stays empty. -/
def seatDigits (people : List String) (chosen : List CandidateEdge) (names : List String) : List ℕ :=
  names.map fun name =>
    match chosenAt chosen name with
    | some edge => (indexByName people edge.person).getD 0
    | none => people.length

/-- The chosen edges in the order of the centers. -/
def seated (chosen : List CandidateEdge) (names : List String) : List CandidateEdge :=
  names.filterMap (chosenAt chosen)

variable {chosen : List CandidateEdge} {names people : List String}

variable {edge : CandidateEdge}

theorem center_of_chosenAt {name : String} (found : chosenAt chosen name = some edge) :
    edge.center = name := by
  have holds := List.find?_some found
  exact of_decide_eq_true holds

theorem mem_seated (member : edge ∈ seated chosen names) : edge.center ∈ names ∧ edge ∈ chosen := by
  obtain ⟨name, listed, found⟩ := List.mem_filterMap.mp member
  exact ⟨center_of_chosenAt found ▸ listed, List.mem_of_find?_eq_some found⟩

theorem chosenAt_center (distinct : (chosen.map CandidateEdge.center).Nodup)
    (member : edge ∈ chosen) : chosenAt chosen edge.center = some edge := by
  obtain ⟨other, found⟩ : ∃ other, chosenAt chosen edge.center = some other :=
    Option.isSome_iff_exists.mp (List.find?_isSome.mpr ⟨edge, member, by simp⟩)
  rw [found, List.inj_on_of_nodup_map distinct (List.mem_of_find?_eq_some found) member
    (center_of_chosenAt found)]

theorem seated_perm (distinct : (chosen.map CandidateEdge.center).Nodup) (listed : names.Nodup)
    (known : ∀ edge ∈ chosen, edge.center ∈ names) : (seated chosen names).Perm chosen := by
  have nodup : (seated chosen names).Nodup := by
    refine listed.filterMap fun first second edge firstFound secondFound => ?_
    rw [← center_of_chosenAt firstFound, ← center_of_chosenAt secondFound]
  refine (List.perm_ext_iff_of_nodup nodup distinct.of_map).mpr fun edge => ?_
  constructor
  · intro member
    exact (mem_seated member).2
  · intro member
    exact List.mem_filterMap.mpr ⟨edge.center, known edge member, chosenAt_center distinct member⟩

theorem singleTieCost_cons {head : String} {rest : List String} (later : edge.center ∈ rest)
    (person : ℕ) :
    singleTieCost people.length (rest.length + 1) person
        ((indexByName (head :: rest) edge.center).getD 0) =
      singleTieCost people.length rest.length person ((indexByName rest edge.center).getD 0) := by
  obtain ⟨index, found, -⟩ := exists_indexByName later
  have shifted : indexByName (head :: rest) edge.center = some (index + 1) := by
    rw [indexByName, found]
  rw [shifted, found]
  unfold singleTieCost
  simp only [Option.getD_some]
  rw [show rest.length + 1 - (index + 1) - 1 = rest.length - index - 1 by omega]

/-- The tie costs add up to the number with the digits of the seats, up to a constant. -/
theorem sum_singleTieCost (listed : names.Nodup) :
    ((seated chosen names).map fun edge => singleTieCost people.length names.length
        ((indexByName people edge.person).getD 0) ((indexByName names edge.center).getD 0)).sum =
      (radixValue (people.length + 1) (seatDigits people chosen names) : ℤ) -
        radixValue (people.length + 1) (List.replicate names.length people.length) := by
  induction names with
  | nil => simp [seated, seatDigits, radixValue]
  | cons head rest ih =>
      have tail := ih listed.of_cons
      have sameTail : ((seated chosen rest).map fun edge =>
            singleTieCost people.length (head :: rest).length
              ((indexByName people edge.person).getD 0)
              ((indexByName (head :: rest) edge.center).getD 0)) =
          (seated chosen rest).map fun edge => singleTieCost people.length rest.length
            ((indexByName people edge.person).getD 0)
            ((indexByName rest edge.center).getD 0) :=
        List.map_congr_left fun edge member => singleTieCost_cons (mem_seated member).1 _
      have digitsLength : (seatDigits people chosen rest).length = rest.length := by
        simp [seatDigits]
      have digits : seatDigits people chosen (head :: rest) =
          (match chosenAt chosen head with
            | some edge => (indexByName people edge.person).getD 0
            | none => people.length) :: seatDigits people chosen rest := rfl
      rw [digits, List.length_cons, List.replicate_succ, radixValue, radixValue, digitsLength,
        List.length_replicate, seated, List.filterMap_cons]
      rw [List.length_cons] at sameTail
      cases found : chosenAt chosen head with
      | none =>
          change ((seated chosen rest).map _).sum = _
          rw [sameTail, tail]
          push_cast
          ring
      | some edge =>
          have here : (indexByName (head :: rest) edge.center).getD 0 = 0 := by
            rw [center_of_chosenAt found, indexByName,
              indexByName_eq_none.mpr (List.nodup_cons.mp listed).1]
            simp
          change (List.map _ (edge :: seated chosen rest)).sum = _
          rw [List.map_cons, List.sum_cons, sameTail, tail, here]
          unfold singleTieCost
          push_cast
          ring

theorem seatDigits_lt (known : ∀ edge ∈ chosen, edge.person ∈ people) :
    ∀ digit ∈ seatDigits people chosen names, digit < people.length + 1 := by
  intro digit member
  obtain ⟨name, -, rfl⟩ := List.mem_map.mp member
  cases found : chosenAt chosen name with
  | none => exact Nat.lt_succ_self _
  | some edge =>
      obtain ⟨index, same, below⟩ := exists_indexByName
        (known edge (List.mem_of_find?_eq_some found))
      simp only [same, Option.getD_some]
      omega

section Keys

variable {lower : String → String}

/-- Names in strictly increasing order once lower-cased. -/
def StrictlyOrdered (lower : String → String) (names : List String) : Prop :=
  names.Pairwise fun first second => lower first < lower second

theorem strictlyOrdered_sortBy {α : Type*} {name : α → String} {items : List α}
    (distinct : (items.map fun item => lower (name item)).Nodup) :
    StrictlyOrdered lower ((sortBy (fun item => lower (name item)) items).map name) := by
  have ordered := pairwise_sortBy (fun item => lower (name item)) items
  have different : ((sortBy (fun item => lower (name item)) items).map fun item =>
      lower (name item)).Nodup := ((sortBy_perm _ items).map _).nodup_iff.mpr distinct
  rw [List.nodup_map_iff_inj_on (List.Nodup.of_map _ different)] at different
  unfold StrictlyOrdered
  rw [List.pairwise_map]
  have nodup : (sortBy (fun item => lower (name item)) items).Pairwise (· ≠ ·) :=
    (sortBy_perm _ items).nodup_iff.mpr (List.Nodup.of_map _ distinct)
  refine (ordered.and nodup).imp_of_mem fun firstMember secondMember both => ?_
  exact lt_of_le_of_ne both.1 fun same => both.2 (different _ firstMember _ secondMember same)

theorem StrictlyOrdered.lt_of_index_lt (ordered : StrictlyOrdered lower people)
    {first second : String} {firstIndex secondIndex : ℕ}
    (firstFound : indexByName people first = some firstIndex)
    (secondFound : indexByName people second = some secondIndex)
    (earlier : firstIndex < secondIndex) : lower first < lower second := by
  obtain ⟨firstBound, rfl⟩ := List.getElem?_eq_some_iff.mp (getElem?_of_indexByName firstFound)
  obtain ⟨secondBound, rfl⟩ := List.getElem?_eq_some_iff.mp (getElem?_of_indexByName secondFound)
  exact List.pairwise_iff_getElem.mp ordered _ _ firstBound secondBound earlier

/-- Smaller digits mean earlier decisions, for equally many decisions. -/
theorem map_seated_le_of_seatDigits_le (peopleOrdered : StrictlyOrdered lower people)
    (namesOrdered : StrictlyOrdered lower names) {first second : List CandidateEdge}
    (firstKnown : ∀ edge ∈ first, edge.person ∈ people)
    (secondKnown : ∀ edge ∈ second, edge.person ∈ people)
    (sameLength : (seated first names).length = (seated second names).length)
    (below : seatDigits people first names ≤ seatDigits people second names) :
    (seated first names).map (fun edge => decisionKey lower (decision edge)) ≤
      (seated second names).map fun edge => decisionKey lower (decision edge) := by
  induction names with
  | nil => exact le_rfl
  | cons head rest ih =>
      obtain ⟨headFirst, restOrdered⟩ := List.pairwise_cons.mp namesOrdered
      have split : ∀ chosen : List CandidateEdge, seated chosen (head :: rest) =
          match chosenAt chosen head with
          | some edge => edge :: seated chosen rest
          | none => seated chosen rest := by
        intro chosen
        rw [seated, List.filterMap_cons]
        cases chosenAt chosen head <;> rfl
      have digits : ∀ chosen : List CandidateEdge, seatDigits people chosen (head :: rest) =
          (match chosenAt chosen head with
            | some edge => (indexByName people edge.person).getD 0
            | none => people.length) :: seatDigits people chosen rest := fun _ => rfl
      rw [digits, digits, cons_le_cons_iff] at below
      rw [split, split] at sameLength ⊢
      cases firstFound : chosenAt first head with
      | none =>
          rw [firstFound] at below sameLength
          cases secondFound : chosenAt second head with
          | none =>
              rw [secondFound] at below sameLength
              exact ih restOrdered sameLength
                ((below.resolve_left (lt_irrefl _)).2)
          | some other =>
              obtain ⟨index, found, inside⟩ := exists_indexByName
                (secondKnown other (List.mem_of_find?_eq_some secondFound))
              rw [secondFound] at below
              simp only [found, Option.getD_some] at below
              omega
      | some edge =>
          rw [firstFound] at below sameLength
          obtain ⟨index, found, inside⟩ := exists_indexByName
            (firstKnown edge (List.mem_of_find?_eq_some firstFound))
          cases secondFound : chosenAt second head with
          | none =>
              rw [secondFound] at sameLength
              simp only [List.length_cons] at sameLength
              obtain ⟨later, remaining, same⟩ := List.exists_cons_of_length_eq_add_one sameLength.symm
              rw [same, List.map_cons, List.map_cons, cons_le_cons_iff]
              left
              have listed : later.center ∈ rest :=
                (mem_seated (same ▸ List.mem_cons_self : later ∈ seated second rest)).1
              unfold decisionKey
              left
              rw [decision_center, decision_center, center_of_chosenAt firstFound]
              exact headFirst _ listed
          | some other =>
              obtain ⟨otherIndex, otherFound, otherInside⟩ := exists_indexByName
                (secondKnown other (List.mem_of_find?_eq_some secondFound))
              rw [secondFound] at below sameLength
              simp only [found, otherFound, Option.getD_some] at below
              simp only [List.map_cons, cons_le_cons_iff]
              rcases below with earlier | ⟨rfl, tails⟩
              · left
                unfold decisionKey
                rw [Prod.Lex.toLex_lt_toLex]
                right
                rw [decision_center, decision_center, center_of_chosenAt firstFound,
                  center_of_chosenAt secondFound]
                exact ⟨rfl, peopleOrdered.lt_of_index_lt found otherFound earlier⟩
              · right
                have samePerson : edge.person = other.person := Option.some.inj
                  ((getElem?_of_indexByName found).symm.trans (getElem?_of_indexByName otherFound))
                refine ⟨?_, ih restOrdered (Nat.succ.inj sameLength) tails⟩
                unfold decisionKey
                rw [decision_center, decision_center, center_of_chosenAt firstFound,
                  center_of_chosenAt secondFound, decision_person, decision_person, samePerson]

theorem pairwise_map_seated (ordered : StrictlyOrdered lower names) :
    ((seated chosen names).map fun edge => decisionKey lower (decision edge)).Pairwise (· ≤ ·) := by
  rw [List.pairwise_map, seated, List.pairwise_filterMap]
  refine ordered.imp fun {first second} before edge found other otherFound => ?_
  unfold decisionKey
  left
  rw [decision_center, decision_center, center_of_chosenAt found, center_of_chosenAt otherFound]
  exact before

end Keys

end Decoding

/-- Lower-casing keeps the names apart. -/
def Apart (lower : String → String) (names : List String) : Prop :=
  ∀ first ∈ names, ∀ second ∈ names, lower first = lower second → first = second

instance (lower : String → String) (names : List String) : Decidable (Apart lower names) :=
  inferInstanceAs (Decidable (∀ _ ∈ _, _))

theorem Apart.nodup_map {lower : String → String} {names : List String} (apart : Apart lower names)
    (distinct : names.Nodup) : (names.map lower).Nodup :=
  distinct.map_on fun first firstMember second secondMember same =>
    apart first firstMember second secondMember same

/-- The keys of the decisions in order. -/
def decisionKeys (lower : String → String) (decisions : List AssignmentDecision) :
    List (String ×ₗ String) :=
  sortKeys (decisions.map (decisionKey lower))

theorem map_decisionKey_sortDecisions (lower : String → String)
    (decisions : List AssignmentDecision) :
    (sortDecisions lower decisions).map (decisionKey lower) = decisionKeys lower decisions :=
  map_sortBy _ decisions

theorem overrideCount_map (chosen : List CandidateEdge) :
    (overrideCount (chosen.map decision) : ℤ) = (chosen.map CandidateEdge.overrideCost).sum := by
  induction chosen with
  | nil => rfl
  | cons edge rest ih =>
      unfold overrideCount at ih ⊢
      rw [List.map_cons, List.countP_cons, List.map_cons, List.sum_cons, ← ih]
      by_cases never : edge.preference = .never
      · simp [CandidateEdge.overrideCost, never, add_comm]
      · simp [CandidateEdge.overrideCost, never]

theorem totalRankCost_map (chosen : List CandidateEdge) :
    totalRankCost (chosen.map decision) = (chosen.map CandidateEdge.rankCost).sum := by
  unfold totalRankCost
  rw [List.map_map]
  rfl

theorem singleCost_eq (people centers : ℕ) (ordinaryBound : ℤ) (personIndex centerIndex : ℕ)
    (edge : CandidateEdge) :
    singleCost people centers ordinaryBound personIndex centerIndex edge =
      primaryCost ordinaryBound edge * ((people + 1 : ℕ) : ℤ) ^ centers +
        singleTieCost people centers personIndex centerIndex := by
  have positive : 1 ≤ (people + 1) ^ centers := Nat.one_le_pow _ _ (Nat.succ_pos people)
  simp only [singleCost, Nat.sub_add_cancel positive, Nat.cast_pow]

section Optimal

variable {lower : String → String} {requirements : List CenterRequirement}
  {unavailablePeople : Finset String} (problem : SingleProblem requirements)

include problem

theorem SingleProblem.nonneg_of_mem {edge : CandidateEdge}
    (member : edge ∈ singleEdges lower requirements unavailablePeople) : 0 ≤ edge.rankCost := by
  obtain ⟨⟨requirement, listed, candidate⟩, -⟩ := mem_singleEdges.mp member
  exact problem.nonneg requirement listed edge candidate

/-- The weight of a choice: overrides, rank cost and seats, each scaled above the next. -/
theorem total_offers {chosen : List CandidateEdge}
    (choice : SingleChoice requirements unavailablePeople chosen) :
    (problem.offers lower unavailablePeople).total chosen =
      ((overrideCount (chosen.map decision) : ℤ) *
            singleOrdinaryBound (singleEdges lower requirements unavailablePeople) +
          totalRankCost (chosen.map decision)) *
        ((singlePeople lower requirements unavailablePeople).length + 1 : ℕ) ^
          (singleCenterNames lower requirements).length +
      ((radixValue ((singlePeople lower requirements unavailablePeople).length + 1)
          (seatDigits (singlePeople lower requirements unavailablePeople) chosen
            (singleCenterNames lower requirements)) : ℤ) -
        radixValue ((singlePeople lower requirements unavailablePeople).length + 1)
          (List.replicate (singleCenterNames lower requirements).length
            (singlePeople lower requirements unavailablePeople).length)) := by
  have listed : (singleCenterNames lower requirements).Nodup := problem.names_nodup
  have seats := @sum_singleTieCost chosen _ (singlePeople lower requirements unavailablePeople) listed
  rw [← seats, overrideCount_map, totalRankCost_map,
    ((seated_perm choice.centers problem.names_nodup fun edge member =>
      problem.mem_names (choice.subset member)).map _).sum_eq]
  have known : ∀ edge ∈ chosen, 0 ≤ edge.rankCost := fun edge member =>
    problem.nonneg_of_mem (choice.subset member : edge ∈ singleEdges lower requirements _)
  unfold Offers.total
  clear seats choice
  induction chosen with
  | nil => simp
  | cons edge rest ih =>
      have tail := ih fun other member => known other (List.mem_cons_of_mem _ member)
      have head := known edge List.mem_cons_self
      rw [List.map_cons, List.sum_cons, tail]
      simp only [List.map_cons, List.sum_cons, SingleProblem.offers]
      rw [singleCost_eq, primaryCost, max_eq_right head]
      ring

/-- The rank cost of a choice stays below the weight of one override. -/
theorem totalRankCost_lt {chosen : List CandidateEdge}
    (choice : SingleChoice requirements unavailablePeople chosen) :
    0 ≤ totalRankCost (chosen.map decision) ∧ totalRankCost (chosen.map decision) <
      singleOrdinaryBound (singleEdges lower requirements unavailablePeople) := by
  have known : ∀ edge ∈ chosen, 0 ≤ edge.rankCost := fun edge member =>
    problem.nonneg_of_mem (choice.subset member : edge ∈ singleEdges lower requirements _)
  rw [totalRankCost_map]
  constructor
  · refine List.sum_nonneg fun cost member => ?_
    obtain ⟨edge, inside, rfl⟩ := List.mem_map.mp member
    exact known edge inside
  · obtain ⟨arranged, perm, sublist⟩ :=
      choice.centers.of_map.subperm
        (choice.subset : chosen ⊆ singleEdges lower requirements unavailablePeople)
    have costs : (chosen.map CandidateEdge.rankCost).sum =
        (arranged.map fun edge => max 0 edge.rankCost).sum := by
      rw [(perm.symm.map CandidateEdge.rankCost).sum_eq]
      congr 1
      exact List.map_congr_left fun edge member =>
        (max_eq_right (known edge (perm.mem_iff.mp member))).symm
    have below := (sublist.map fun edge => max 0 edge.rankCost).sum_le_sum (by
      intro cost member
      obtain ⟨edge, -, rfl⟩ := List.mem_map.mp member
      exact le_max_left 0 _)
    unfold singleOrdinaryBound
    omega

omit problem in
/-- The number of the seats stays below the weight of one unit of rank cost. -/
theorem seatValue_lt {chosen : List CandidateEdge}
    (choice : SingleChoice requirements unavailablePeople chosen) :
    (radixValue ((singlePeople lower requirements unavailablePeople).length + 1)
        (seatDigits (singlePeople lower requirements unavailablePeople) chosen
          (singleCenterNames lower requirements)) : ℤ) <
      ((singlePeople lower requirements unavailablePeople).length + 1 : ℕ) ^
        (singleCenterNames lower requirements).length := by
  have known : ∀ edge ∈ chosen,
      edge.person ∈ singlePeople lower requirements unavailablePeople := fun edge member =>
    mem_singlePeople (choice.subset member)
  have below := radixValue_lt
    (seatDigits_lt known : ∀ digit ∈ seatDigits _ chosen (singleCenterNames lower requirements), _)
  rw [seatDigits, List.length_map, ← seatDigits] at below
  exact_mod_cast below

/-- The keys of a choice in order are those of its seats. -/
theorem decisionKeys_eq_seated {chosen : List CandidateEdge}
    (choice : SingleChoice requirements unavailablePeople chosen)
    (ordered : StrictlyOrdered lower (singleCenterNames lower requirements)) :
    decisionKeys lower (chosen.map decision) =
      (seated chosen (singleCenterNames lower requirements)).map fun edge =>
        decisionKey lower (decision edge) := by
  have perm := seated_perm choice.centers
    (problem.names_nodup : (singleCenterNames lower requirements).Nodup)
    fun edge member => problem.mem_names (choice.subset member)
  unfold decisionKeys
  rw [List.map_map, ← sortKeys_eq_of_perm (perm.map _)]
  exact sortKeys_eq_self (pairwise_map_seated ordered)

/-- **The single matching is optimal.** -/
theorem matchSingleRequirements_optimal :
    ∃ chosen, (∀ᶠ fuel in Filter.atTop,
        matchSingleRequirements lower fuel requirements unavailablePeople =
          .ok (sortDecisions lower (chosen.map decision))) ∧
      SingleChoice requirements unavailablePeople chosen ∧
      ∀ other, SingleChoice requirements unavailablePeople other →
        other.length ≤ chosen.length ∧ (other.length = chosen.length →
          toLex (overrideCount (chosen.map decision), totalRankCost (chosen.map decision)) ≤
            toLex (overrideCount (other.map decision), totalRankCost (other.map decision)) ∧
          (Apart lower (requirements.map CenterRequirement.center) →
            Apart lower ((singleEdges lower requirements unavailablePeople).map
              CandidateEdge.person) →
            toLex (overrideCount (chosen.map decision), toLex (totalRankCost (chosen.map decision),
                decisionKeys lower (chosen.map decision))) ≤
              toLex (overrideCount (other.map decision), toLex (totalRankCost (other.map decision),
                decisionKeys lower (other.map decision))))) := by
  obtain ⟨chosen, reached, choice, best⟩ :=
    @matchSingleRequirements_selection lower requirements unavailablePeople problem
  refine ⟨chosen, reached, choice, fun other otherChoice => ?_⟩
  obtain ⟨longest, cheapest⟩ := best other otherChoice
  refine ⟨longest, fun same => ?_⟩
  have compared := cheapest same
  rw [total_offers problem choice, total_offers problem otherChoice] at compared
  obtain ⟨rankNonneg, rankLt⟩ := @totalRankCost_lt lower _ _ problem _ choice
  obtain ⟨otherNonneg, otherLt⟩ := @totalRankCost_lt lower _ _ problem _ otherChoice
  have seats := @seatValue_lt lower _ _ _ otherChoice
  have lexicographic := lex_of_doubly_scaled_le (by linarith) (by positivity)
    (abs_lt.mpr ⟨by linarith, by linarith⟩) compared
  simp only [Prod.Lex.toLex_le_toLex] at lexicographic ⊢
  refine ⟨lexicographic.imp_right fun equal => ⟨equal.1, equal.2.elim le_of_lt fun tie => tie.1.le⟩,
    fun centersApart peopleApart => lexicographic.imp_right fun equal =>
      ⟨equal.1, equal.2.imp_right fun tie => ⟨tie.1, ?_⟩⟩⟩
  have namesOrdered : StrictlyOrdered lower (singleCenterNames lower requirements) :=
    strictlyOrdered_sortBy (by
      have distinct := centersApart.nodup_map problem.distinct
      rwa [List.map_map] at distinct)
  have peopleOrdered : StrictlyOrdered lower (singlePeople lower requirements unavailablePeople) := by
    have distinct : ((((singleEdges lower requirements unavailablePeople).map
        CandidateEdge.person).dedup).map fun name => lower (id name)).Nodup :=
      Apart.nodup_map (fun first firstMember second secondMember =>
        peopleApart first (List.mem_dedup.mp firstMember) second (List.mem_dedup.mp secondMember))
        (List.nodup_dedup _)
    have ordered := strictlyOrdered_sortBy distinct
    rwa [List.map_id] at ordered
  have known : ∀ edges, SingleChoice requirements unavailablePeople edges → ∀ edge ∈ edges,
      edge.person ∈ singlePeople lower requirements unavailablePeople :=
    fun edges chosenEdges edge member => mem_singlePeople (chosenEdges.subset member)
  have seats : ∀ edges, SingleChoice requirements unavailablePeople edges →
      (seated edges (singleCenterNames lower requirements)).length = edges.length :=
    fun edges chosenEdges => (seated_perm chosenEdges.centers problem.names_nodup
      fun edge member => problem.mem_names (chosenEdges.subset member)).length_eq
  rw [decisionKeys_eq_seated problem choice namesOrdered,
    decisionKeys_eq_seated problem otherChoice namesOrdered]
  refine map_seated_le_of_seatDigits_le peopleOrdered namesOrdered (known _ choice)
    (known _ otherChoice) (by rw [seats _ choice, seats _ otherChoice, same]) ?_
  refine (radixValue_le_iff (by simp [seatDigits]) (seatDigits_lt (known _ choice))
    (seatDigits_lt (known _ otherChoice))).mp ?_
  omega

end Optimal

end PlantManager.Solver

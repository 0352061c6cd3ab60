import PlantManager.Solver.CoverageSearch

/-! # Minimum coverage is optimal

`Solver.solveMinimumCoverage_optimal`: the result is a feasible
selection, and no feasible selection staffs more centers, or as many with fewer
overrides, or with as few at less cost, or, where lower-casing keeps the center names
apart, at the same cost with earlier decisions.
-/

namespace PlantManager.Solver

open Ranking

/-- The candidates and crew members of a requirement. -/
def CenterRequirement.edges (requirement : CenterRequirement) : List CandidateEdge :=
  requirement.candidates ++ requirement.crewOptions.flatMap CrewOption.members

/-- Requirements for different centers that the solver accepts, with people whom
lower-casing keeps apart, costs that are not negative, and candidates for their own
center. -/
structure CoverageProblem (lower : String → String) (requirements : List CenterRequirement) :
    Prop where
  distinct : (requirements.map CenterRequirement.center).Nodup
  peopleApart : Apart lower
    (requirements.flatMap fun requirement => requirement.edges.map CandidateEdge.person)
  nonneg : ∀ requirement ∈ requirements, ∀ edge ∈ requirement.edges, 0 ≤ edge.rankCost
  ownCenter : ∀ requirement ∈ requirements, ∀ edge ∈ requirement.candidates,
    edge.center = requirement.center
  crewsValid : CrewsValid (coupledRequirements lower requirements)
  levelsValid : LevelsValid (normalizedRequirements lower requirements)
    (coupledRequirements lower requirements)

/-- A selection gives every center that needs several people one of its crews or
nothing, every center that needs one person one of its candidates or nothing, and
uses nobody twice and nobody who holds a place. -/
structure FeasibleSelection (requirements : List CenterRequirement)
    (chosen : List CandidateEdge) : Prop where
  listed : ∀ edge ∈ chosen, edge.center ∈ requirements.map CenterRequirement.center
  crew : ∀ requirement ∈ requirements, 1 < requirement.remainingSlots →
    chosenFor chosen requirement.center = [] ∨
      ∃ option ∈ requirement.crewOptions,
        (chosenFor chosen requirement.center).Perm option.members
  single : ∀ requirement ∈ requirements, requirement.remainingSlots = 1 →
    chosenFor chosen requirement.center = [] ∨
      ∃ edge ∈ requirement.candidates, chosenFor chosen requirement.center = [edge]
  closed : ∀ requirement ∈ requirements, requirement.remainingSlots < 1 →
    chosenFor chosen requirement.center = []
  people : (chosen.map CandidateEdge.person).Nodup
  unreserved : ∀ edge ∈ chosen, ∀ requirement ∈ requirements,
    edge.person ∉ requirement.protectedPeople

/-- The score of a selection. -/
def selectionScore (lower : String → String) (requirements : List CenterRequirement)
    (chosen : List CandidateEdge) : Score :=
  toLex (-(requirements.countP fun requirement => Staffed (chosen.map decision) requirement : ℤ),
    toLex (overrideCount (chosen.map decision), toLex (totalRankCost (chosen.map decision),
      decisionKeys lower (chosen.map decision))))

/-- Centers staffed, overrides and rank cost. -/
def Score.costs (score : Score) : ℤ ×ₗ ℕ ×ₗ ℤ :=
  toLex ((ofLex score).1, toLex ((ofLex (ofLex score).2).1, (ofLex (ofLex (ofLex score).2).2).1))

theorem Score.costs_mono {first second : Score} (below : first ≤ second) :
    first.costs ≤ second.costs := by
  rcases (Prod.Lex.le_iff).mp below with fewer | ⟨same, inner⟩
  · exact Prod.Lex.toLex_le_toLex.mpr (Or.inl fewer)
  · refine Prod.Lex.toLex_le_toLex.mpr (Or.inr ⟨same, Prod.Lex.toLex_le_toLex.mpr ?_⟩)
    rcases (Prod.Lex.le_iff).mp inner with fewer | ⟨equal, last⟩
    · exact Or.inl fewer
    · refine Or.inr ⟨equal, ?_⟩
      rcases (Prod.Lex.le_iff).mp last with less | ⟨tie, -⟩
      · exact le_of_lt less
      · exact le_of_eq tie

section Parts

variable {lower : String → String} {requirements : List CenterRequirement}

variable {requirement : CenterRequirement}

theorem mem_normalized :
    requirement ∈ normalizedRequirements lower requirements ↔ requirement ∈ requirements :=
  mem_sortBy _

theorem mem_singles :
    requirement ∈ singleRequirements lower requirements ↔
      requirement ∈ requirements ∧ requirement.remainingSlots = 1 := by
  simp [singleRequirements, mem_normalized]

theorem mem_coupled :
    requirement ∈ coupledRequirements lower requirements ↔
      requirement ∈ requirements ∧ 1 < requirement.remainingSlots := by
  simp [coupledRequirements, mem_normalized]

theorem normalized_perm : (normalizedRequirements lower requirements).Perm requirements :=
  sortBy_perm _ _

variable (distinct : (requirements.map CenterRequirement.center).Nodup)

include distinct

theorem normalized_distinct :
    ((normalizedRequirements lower requirements).map CenterRequirement.center).Nodup :=
  (normalized_perm.map _).nodup_iff.mpr distinct

theorem singles_distinct :
    ((singleRequirements lower requirements).map CenterRequirement.center).Nodup :=
  (normalized_distinct distinct).sublist (List.filter_sublist.map _)

theorem coupled_distinct :
    ((coupledRequirements lower requirements).map CenterRequirement.center).Nodup :=
  ((sortBy_perm _ _).map _).nodup_iff.mpr
    ((normalized_distinct distinct).sublist (List.filter_sublist.map _))

/-- Requirements with one name are one requirement. -/
theorem eq_of_center_eq {first second : CenterRequirement} (firstListed : first ∈ requirements)
    (secondListed : second ∈ requirements) (same : first.center = second.center) : first = second :=
  List.inj_on_of_nodup_map distinct firstListed secondListed same

theorem center_notMem_coupled (listed : requirement ∈ requirements)
    (few : requirement.remainingSlots ≤ 1) :
    requirement.center ∉ (coupledRequirements lower requirements).map CenterRequirement.center := by
  intro member
  obtain ⟨other, coupled, same⟩ := List.mem_map.mp member
  obtain ⟨otherListed, many⟩ := mem_coupled.mp coupled
  obtain rfl := eq_of_center_eq distinct otherListed listed same
  omega

theorem center_notMem_singles (listed : requirement ∈ requirements)
    (different : requirement.remainingSlots ≠ 1) :
    requirement.center ∉ (singleRequirements lower requirements).map CenterRequirement.center := by
  intro member
  obtain ⟨other, single, same⟩ := List.mem_map.mp member
  obtain ⟨otherListed, one⟩ := mem_singles.mp single
  obtain rfl := eq_of_center_eq distinct otherListed listed same
  exact different one

end Parts

section Decompose

variable {lower : String → String} {requirements : List CenterRequirement}

variable (lower) in
/-- The chosen edges are those at coupled centers and those at single centers. -/
theorem FeasibleSelection.perm_append {chosen : List CandidateEdge}
    (feasible : FeasibleSelection requirements chosen)
    (distinct : (requirements.map CenterRequirement.center).Nodup) :
    chosen.Perm
      (chosenAmong chosen ((coupledRequirements lower requirements).map CenterRequirement.center) ++
        chosenAmong chosen ((singleRequirements lower requirements).map
          CenterRequirement.center)) := by
  have opposite : chosenAmong chosen ((singleRequirements lower requirements).map
      CenterRequirement.center) = chosen.filter fun edge => ! decide (edge.center ∈
        (coupledRequirements lower requirements).map CenterRequirement.center) := by
    refine List.filter_congr fun edge member => ?_
    obtain ⟨requirement, listed, same⟩ := List.mem_map.mp (feasible.listed edge member)
    rw [← decide_not, decide_eq_decide, ← same]
    rcases lt_trichotomy requirement.remainingSlots 1 with none | one | many
    · have empty := feasible.closed requirement listed none
      exact absurd (List.mem_filter.mpr ⟨member, decide_eq_true same.symm⟩)
        (by rw [← chosenFor, empty]; exact List.not_mem_nil)
    · exact ⟨fun _ => center_notMem_coupled distinct listed one.le, fun _ =>
        List.mem_map_of_mem (mem_singles.mpr ⟨listed, one⟩)⟩
    · exact ⟨fun single => absurd single (center_notMem_singles distinct listed many.ne'),
        fun notCoupled => absurd (List.mem_map_of_mem (mem_coupled.mpr ⟨listed, many⟩)) notCoupled⟩
  rw [opposite]
  exact (List.filter_append_perm _ chosen).symm

/-- The part of a feasible selection at single centers is a single choice. -/
theorem FeasibleSelection.singleChoice {chosen : List CandidateEdge}
    (feasible : FeasibleSelection requirements chosen)
    (distinct : (requirements.map CenterRequirement.center).Nodup) :
    SingleChoice (singleRequirements lower requirements)
      (reservedPeople requirements ∪ peopleOf (chosenAmong chosen
        ((coupledRequirements lower requirements).map CenterRequirement.center)))
      (chosenAmong chosen ((singleRequirements lower requirements).map
        CenterRequirement.center)) := by
  have single : ∀ requirement ∈ singleRequirements lower requirements,
      chosenFor chosen requirement.center = [] ∨
        ∃ edge ∈ requirement.candidates, chosenFor chosen requirement.center = [edge] := by
    intro requirement member
    obtain ⟨listed, one⟩ := mem_singles.mp member
    exact feasible.single requirement listed one
  have apart := disjoint_people
    (((feasible.perm_append lower distinct).map CandidateEdge.person).nodup_iff.mp feasible.people)
  refine ⟨fun edge member => ?_, fun edge member reserved => ?_, ?_, ?_⟩
  · obtain ⟨inside, there⟩ := List.mem_filter.mp member
    obtain ⟨requirement, listed, same⟩ := List.mem_map.mp (of_decide_eq_true there)
    have found : edge ∈ chosenFor chosen requirement.center :=
      List.mem_filter.mpr ⟨inside, decide_eq_true same.symm⟩
    rcases single requirement listed with none | ⟨candidate, offered, only⟩
    · rw [none] at found
      exact absurd found List.not_mem_nil
    · rw [only, List.mem_singleton] at found
      exact ⟨requirement, listed, found ▸ offered⟩
  · rcases Finset.mem_union.mp reserved with held | inCrew
    · obtain ⟨requirement, listed, holds⟩ := List.mem_flatMap.mp (List.mem_toFinset.mp held)
      exact feasible.unreserved edge (List.mem_of_mem_filter member) requirement listed holds
    · exact Finset.disjoint_left.mp apart inCrew
        (List.mem_toFinset.mpr (List.mem_map_of_mem member))
  · exact feasible.people.sublist (List.filter_sublist.map _)
  · rw [List.nodup_iff_count_le_one]
    intro name
    by_cases there : name ∈ (singleRequirements lower requirements).map CenterRequirement.center
    · obtain ⟨requirement, listed, rfl⟩ := List.mem_map.mp there
      have counted : ((chosenAmong chosen ((singleRequirements lower requirements).map
          CenterRequirement.center)).map CandidateEdge.center).count requirement.center ≤
          (chosenFor chosen requirement.center).length := by
        rw [List.count, List.countP_map, chosenFor, ← List.countP_eq_length_filter]
        refine le_trans (List.Sublist.countP_le List.filter_sublist) (le_of_eq ?_)
        exact List.countP_congr fun edge _ => by simp
      refine counted.trans ?_
      rcases single requirement listed with none | ⟨candidate, offered, only⟩
      · rw [none]
        exact Nat.zero_le 1
      · rw [only]
        exact le_rfl
    · rw [List.count_eq_zero_of_not_mem]
      · exact Nat.zero_le 1
      · intro member
        obtain ⟨edge, inside, rfl⟩ := List.mem_map.mp member
        exact there (of_decide_eq_true (List.mem_filter.mp inside).2)

end Decompose

section Compose

variable {lower : String → String} {requirements : List CenterRequirement}
  (problem : CoverageProblem lower requirements)

include problem

theorem CoverageProblem.crewOwn : ∀ requirement ∈ coupledRequirements lower requirements,
    ∀ option ∈ requirement.crewOptions, ∀ member ∈ option.members,
      member.center = requirement.center :=
  fun requirement listed option offered => (problem.crewsValid requirement listed option offered).2.2.2

theorem CoverageProblem.crewDistinct : ∀ requirement ∈ coupledRequirements lower requirements,
    ∀ option ∈ requirement.crewOptions, option.people.Nodup :=
  fun requirement listed option offered =>
    (problem.crewsValid requirement listed option offered).2.2.1

theorem CoverageProblem.singleProblem :
    SingleProblem (singleRequirements lower requirements) where
  distinct := singles_distinct problem.distinct
  ownCenter := fun requirement listed => problem.ownCenter requirement (mem_singles.mp listed).1
  nonneg := fun requirement listed edge candidate =>
    problem.nonneg requirement (mem_singles.mp listed).1 edge (List.mem_append_left _ candidate)

theorem CoverageProblem.singleCenter {unavailable : Finset String} {chosen : List CandidateEdge}
    (choice : SingleChoice (singleRequirements lower requirements) unavailable chosen) :
    ∀ edge ∈ chosen, ∃ requirement ∈ singleRequirements lower requirements,
      requirement.center = edge.center ∧ edge ∈ requirement.candidates := by
  intro edge member
  obtain ⟨requirement, listed, candidate⟩ := choice.candidate edge member
  exact ⟨requirement, listed,
    (problem.ownCenter requirement (mem_singles.mp listed).1 edge candidate).symm, candidate⟩

omit problem in
/-- Edges with different centers have at most one for each center. -/
theorem chosenFor_eq_of_nodup {chosen : List CandidateEdge}
    (distinct : (chosen.map CandidateEdge.center).Nodup) (name : String) :
    chosenFor chosen name = [] ∨ ∃ edge ∈ chosen, edge.center = name ∧
      chosenFor chosen name = [edge] := by
  have sub : (chosenFor chosen name).Sublist chosen := List.filter_sublist
  have centers : ∀ edge ∈ chosenFor chosen name, edge.center = name := fun edge member =>
    of_decide_eq_true (List.mem_filter.mp member).2
  cases found : chosenFor chosen name with
  | nil => exact Or.inl rfl
  | cons edge rest =>
      rw [found] at sub centers
      cases rest with
      | nil => exact Or.inr ⟨edge, sub.subset List.mem_cons_self, centers edge List.mem_cons_self, rfl⟩
      | cons other others =>
          have nodup := distinct.sublist (sub.map CandidateEdge.center)
          have same : edge.center = other.center := by
            rw [centers edge List.mem_cons_self,
              centers other (List.mem_cons_of_mem _ List.mem_cons_self)]
          simp [same] at nodup

/-- Crews and a single choice for the people they leave form a feasible selection. -/
theorem CoverageProblem.feasible_append {crews singles : List CandidateEdge}
    (choice : CrewChoice CenterRequirement.crewOptions (coupledRequirements lower requirements) (reservedPeople requirements) crews)
    {candidatePeople : Finset String}
    (candidates : ∀ requirement ∈ singleRequirements lower requirements,
      ∀ edge ∈ requirement.candidates, edge.person ∈ candidatePeople)
    (single : SingleChoice (singleRequirements lower requirements)
      ((reservedPeople requirements ∪ peopleOf crews) ∩ candidatePeople) singles) :
    FeasibleSelection requirements (crews ++ singles) := by
  have crewCenters := choice.centers problem.crewOwn
  have singleCenters := problem.singleCenter single
  obtain ⟨crewPeople, crewUnreserved⟩ := choice.people problem.crewDistinct
  have noCrew : ∀ requirement ∈ requirements, requirement.remainingSlots ≤ 1 →
      chosenFor crews requirement.center = [] := by
    intro requirement listed few
    refine List.filter_eq_nil_iff.mpr fun edge member same => ?_
    exact center_notMem_coupled problem.distinct listed few
      (of_decide_eq_true same ▸ crewCenters edge member)
  have noSingle : ∀ requirement ∈ requirements, requirement.remainingSlots ≠ 1 →
      chosenFor singles requirement.center = [] := by
    intro requirement listed different
    refine List.filter_eq_nil_iff.mpr fun edge member same => ?_
    obtain ⟨other, otherListed, center, -⟩ := singleCenters edge member
    have there : requirement.center ∈
        (singleRequirements lower requirements).map CenterRequirement.center := by
      rw [← of_decide_eq_true same, ← center]
      exact List.mem_map_of_mem otherListed
    exact center_notMem_singles problem.distinct listed different there
  have unavailable : ∀ edge ∈ singles, edge.person ∉ reservedPeople requirements ∪ peopleOf crews := by
    intro edge member used
    obtain ⟨requirement, listed, -, candidate⟩ := singleCenters edge member
    exact single.available edge member
      (Finset.mem_inter.mpr ⟨used, candidates requirement listed edge candidate⟩)
  have split : ∀ name, chosenFor (crews ++ singles) name =
      chosenFor crews name ++ chosenFor singles name := fun name => List.filter_append _ _
  refine ⟨fun edge member => ?_, fun requirement listed many => ?_, fun requirement listed one => ?_,
    fun requirement listed none => ?_, ?_, fun edge member requirement listed held => ?_⟩
  · rcases List.mem_append.mp member with inCrew | isSingle
    · obtain ⟨requirement, listed, same⟩ := List.mem_map.mp (crewCenters edge inCrew)
      exact same ▸ List.mem_map_of_mem (mem_coupled.mp listed).1
    · obtain ⟨requirement, listed, same, -⟩ := singleCenters edge isSingle
      exact same ▸ List.mem_map_of_mem (mem_singles.mp listed).1
  · rw [split, noSingle requirement listed many.ne', List.append_nil]
    exact (choice.chosenFor_eq (coupled_distinct problem.distinct) problem.crewOwn requirement
      (mem_coupled.mpr ⟨listed, many⟩)).imp_right fun ⟨option, offered, same⟩ =>
        ⟨option, offered, same ▸ .rfl⟩
  · rw [split, noCrew requirement listed one.le, List.nil_append]
    refine (chosenFor_eq_of_nodup single.centers requirement.center).imp_right ?_
    rintro ⟨edge, member, center, only⟩
    obtain ⟨other, otherListed, same, candidate⟩ := singleCenters edge member
    obtain rfl := eq_of_center_eq problem.distinct (mem_singles.mp otherListed).1 listed
      (same.trans center)
    exact ⟨edge, candidate, only⟩
  · rw [split, noCrew requirement listed none.le, noSingle requirement listed none.ne,
      List.append_nil]
  · rw [List.map_append]
    refine List.Nodup.append crewPeople single.people fun name inCrew isSingle => ?_
    obtain ⟨edge, member, rfl⟩ := List.mem_map.mp isSingle
    exact unavailable edge member (Finset.mem_union_right _ (List.mem_toFinset.mpr inCrew))
  · have reserved : edge.person ∈ reservedPeople requirements :=
      List.mem_toFinset.mpr (List.mem_flatMap.mpr ⟨requirement, listed, held⟩)
    rcases List.mem_append.mp member with inCrew | isSingle
    · exact Finset.disjoint_left.mp crewUnreserved
        (List.mem_toFinset.mpr (List.mem_map_of_mem inCrew)) reserved
    · exact unavailable edge isSingle (Finset.mem_union_left _ reserved)

end Compose

section Optimal

variable {lower : String → String} {requirements : List CenterRequirement}

theorem reservedPeople_normalized :
    reservedPeople (normalizedRequirements lower requirements) = reservedPeople requirements :=
  List.toFinset_eq_of_perm _ _ (normalized_perm.flatMap_right _)

/-- The search with the matchings already known. -/
def knownSearch (lower : String → String) (requirements : List CenterRequirement)
    (matched : Finset String → List AssignmentDecision) : CoverageSearch where
  normalized := normalizedRequirements lower requirements
  singles := singleRequirements lower requirements
  coupled := coupledRequirements lower requirements
  matchSingles := fun unavailable => .ok (matched unavailable)

theorem CoverageProblem.searchProblem (problem : CoverageProblem lower requirements)
    {chosen : Finset String → List CandidateEdge}
    (choice : ∀ unavailable,
      SingleChoice (singleRequirements lower requirements) unavailable (chosen unavailable)) :
    SearchProblem
      (knownSearch lower requirements fun unavailable =>
        sortDecisions lower ((chosen unavailable).map decision))
      fun unavailable => sortDecisions lower ((chosen unavailable).map decision) where
  distinct := normalized_distinct problem.distinct
  coupledDistinct := coupled_distinct problem.distinct
  coupledListed := fun requirement member => by
    obtain ⟨listed, many⟩ := mem_coupled.mp member
    exact ⟨mem_normalized.mpr listed, by omega⟩
  singlesListed := fun requirement member => by
    obtain ⟨listed, one⟩ := mem_singles.mp member
    exact ⟨mem_normalized.mpr listed, by omega,
      center_notMem_coupled problem.distinct listed one.le⟩
  ownCenter := problem.crewOwn
  crewDistinct := problem.crewDistinct
  matching := fun _ _ => rfl
  matchedCenter := fun unavailable item member => by
    obtain ⟨edge, inside, rfl⟩ := List.mem_map.mp ((mem_sortBy _).mp member)
    obtain ⟨requirement, listed, same, -⟩ :=
      problem.singleCenter (choice unavailable) edge inside
    exact ⟨requirement, listed, same⟩

variable {chosen crews singles : List CandidateEdge}

variable {decisions : List AssignmentDecision} {first second : List CandidateEdge}

/-- The score of assembled decisions is that of the selection they stand for. -/
theorem resultScore_eq_selectionScore (distinct : (requirements.map CenterRequirement.center).Nodup)
    (perm : decisions.Perm (chosen.map decision))
    (isOpen : Open (normalizedRequirements lower requirements) decisions) :
    resultScore lower (assembleResult lower (normalizedRequirements lower requirements) decisions) =
      selectionScore lower requirements chosen := by
  have staffed : requirements.countP (fun requirement => Staffed (chosen.map decision) requirement) =
      (normalizedRequirements lower requirements).countP fun requirement =>
        Staffed decisions requirement := by
    rw [normalized_perm.countP_eq]
    refine List.countP_congr fun requirement _ => ?_
    rw [decide_eq_true_eq, decide_eq_true_eq, Staffed, Staffed, (perm.map _).mem_iff]
  rw [resultScore_assembleResult (normalized_distinct distinct) isOpen, selectionScore, staffed,
    countP_staffed (normalized_distinct distinct) isOpen, overrideCount_perm perm,
    totalRankCost_perm perm, decisionKeys_perm perm]
  push_cast
  rfl

/-- The score of crews together with a single choice. -/
theorem selectionScore_append (distinct : (requirements.map CenterRequirement.center).Nodup)
    (isOpen : Open requirements ((crews ++ singles).map decision))
    (apart : List.Disjoint ((crews.map decision).map AssignmentDecision.center)
      ((singles.map decision).map AssignmentDecision.center))
    (centers : (singles.map CandidateEdge.center).Nodup) :
    selectionScore lower requirements (crews ++ singles) =
      toLex (-((requirements.countP (fun requirement => requirement.remainingSlots = 0) +
          (staffedNames (crews.map decision)).length : ℤ) + singles.length),
        toLex (overrideCount (crews.map decision) + overrideCount (singles.map decision),
          toLex (totalRankCost (crews.map decision) + totalRankCost (singles.map decision),
            decisionKeys lower ((crews ++ singles).map decision)))) := by
  have names : (staffedNames (singles.map decision)).length = singles.length := by
    unfold staffedNames
    rw [List.map_map]
    change ((singles.map CandidateEdge.center).dedup).length = _
    rw [centers.dedup, List.length_map]
  unfold selectionScore
  rw [countP_staffed distinct isOpen, List.map_append, length_staffedNames_append apart, names,
    overrideCount_append, totalRankCost_append]
  push_cast
  rw [add_assoc]

theorem lex_added_le {κ : Type*} [LinearOrder κ] {staffed cost firstCost secondCost : ℤ}
    {first second overrides firstOverrides secondOverrides : ℕ}
    {firstKeys secondKeys firstWhole secondWhole : κ} (longest : second ≤ first)
    (cheapest : second = first → toLex (firstOverrides, toLex (firstCost, firstKeys)) ≤
      toLex (secondOverrides, toLex (secondCost, secondKeys)))
    (keys : second = first → firstKeys ≤ secondKeys → firstWhole ≤ secondWhole) :
    toLex (-(staffed + first), toLex (overrides + firstOverrides,
        toLex (cost + firstCost, firstWhole))) ≤
      toLex (-(staffed + second), toLex (overrides + secondOverrides,
        toLex (cost + secondCost, secondWhole))) := by
  rw [Prod.Lex.toLex_le_toLex]
  rcases longest.lt_or_eq with fewer | same
  · left
    omega
  · right
    refine ⟨by dsimp only; omega, ?_⟩
    have compared := cheapest same
    simp only [Prod.Lex.toLex_le_toLex, add_lt_add_iff_left, add_right_inj] at compared ⊢
    tauto

theorem costs_le_iff {staffed otherStaffed cost otherCost : ℤ} {overrides otherOverrides : ℕ}
    {keys otherKeys : List (String ×ₗ String)} :
    (Score.costs (toLex (staffed, toLex (overrides, toLex (cost, keys)))) ≤
        Score.costs (toLex (otherStaffed, toLex (otherOverrides, toLex (otherCost, otherKeys))))) ↔
      toLex (staffed, toLex (overrides, toLex (cost, ()))) ≤
        toLex (otherStaffed, toLex (otherOverrides, toLex (otherCost, ()))) := by
  unfold Score.costs
  simp only [ofLex_toLex, Prod.Lex.toLex_le_toLex, le_refl, and_true, ← le_iff_lt_or_eq]

theorem selectionScore_perm (perm : first.Perm second) :
    selectionScore lower requirements first = selectionScore lower requirements second := by
  have decisions := perm.map decision
  have staffed : requirements.countP (fun requirement => Staffed (first.map decision) requirement) =
      requirements.countP fun requirement => Staffed (second.map decision) requirement := by
    refine List.countP_congr fun requirement _ => ?_
    rw [decide_eq_true_eq, decide_eq_true_eq, Staffed, Staffed, (decisions.map _).mem_iff]
  rw [selectionScore, selectionScore, staffed, overrideCount_perm decisions,
    totalRankCost_perm decisions, decisionKeys_perm decisions]

theorem FeasibleSelection.open (feasible : FeasibleSelection requirements chosen) :
    Open requirements (chosen.map decision) := by
  intro item member
  obtain ⟨edge, inside, rfl⟩ := List.mem_map.mp member
  obtain ⟨requirement, listed, same⟩ := List.mem_map.mp (feasible.listed edge inside)
  refine ⟨requirement, listed, same, fun zero => ?_⟩
  have empty := feasible.closed requirement listed (by omega)
  have found : edge ∈ chosenFor chosen requirement.center :=
    List.mem_filter.mpr ⟨inside, decide_eq_true same.symm⟩
  rw [empty] at found
  exact List.not_mem_nil found

theorem Open.perm {first second : List AssignmentDecision} (isOpen : Open requirements first)
    (perm : first.Perm second) : Open requirements second :=
  fun item member => isOpen item (perm.mem_iff.mpr member)

theorem FeasibleSelection.perm (feasible : FeasibleSelection requirements first)
    (perm : first.Perm second) : FeasibleSelection requirements second := by
  have sameChosen : ∀ name, (chosenFor first name).Perm (chosenFor second name) :=
    fun name => perm.filter _
  refine ⟨fun edge member => feasible.listed edge (perm.mem_iff.mpr member),
    fun requirement listed many => ?_, fun requirement listed one => ?_,
    fun requirement listed none => ?_, (perm.map _).nodup_iff.mp feasible.people,
    fun edge member => feasible.unreserved edge (perm.mem_iff.mpr member)⟩
  · have same := sameChosen requirement.center
    rcases feasible.crew requirement listed many with empty | ⟨option, offered, members⟩
    · rw [empty] at same
      exact Or.inl same.nil_eq.symm
    · exact Or.inr ⟨option, offered, same.symm.trans members⟩
  · have same := sameChosen requirement.center
    rcases feasible.single requirement listed one with empty | ⟨edge, candidate, only⟩
    · rw [empty] at same
      exact Or.inl same.nil_eq.symm
    · rw [only] at same
      exact Or.inr ⟨edge, candidate, (List.singleton_perm.mp same).symm⟩
  · have same := sameChosen requirement.center
    rw [feasible.closed requirement listed none] at same
    exact same.nil_eq.symm

theorem Open.normalized (isOpen : Open requirements decisions) :
    Open (normalizedRequirements lower requirements) decisions := by
  intro item member
  obtain ⟨requirement, listed, rest⟩ := isOpen item member
  exact ⟨requirement, mem_normalized.mpr listed, rest⟩

theorem SingleChoice.mono {smaller larger : Finset String}
    (choice : SingleChoice requirements larger chosen) (below : smaller ⊆ larger) :
    SingleChoice requirements smaller chosen :=
  ⟨choice.candidate, fun edge member used => choice.available edge member (below used),
    choice.people, choice.centers⟩

theorem disjoint_crews_singles (distinct : (requirements.map CenterRequirement.center).Nodup)
    (crewCenters : ∀ edge ∈ crews, edge.center ∈
      (coupledRequirements lower requirements).map CenterRequirement.center)
    (singleCenters : ∀ edge ∈ singles, edge.center ∈
      (singleRequirements lower requirements).map CenterRequirement.center) :
    List.Disjoint ((crews.map decision).map AssignmentDecision.center)
      ((singles.map decision).map AssignmentDecision.center) := by
  rw [List.map_map, List.map_map]
  intro name inCrews inSingles
  obtain ⟨edge, member, rfl⟩ := List.mem_map.mp inCrews
  obtain ⟨other, otherMember, same⟩ := List.mem_map.mp inSingles
  obtain ⟨requirement, listed, center⟩ := List.mem_map.mp (singleCenters other otherMember)
  obtain ⟨known, one⟩ := mem_singles.mp listed
  have crew := crewCenters edge member
  change other.center = edge.center at same
  rw [← same, ← center] at crew
  exact center_notMem_coupled distinct known one.le crew

/-- The matching is at least as good as any single choice for the same people. -/
theorem CoverageProblem.selectionScore_matching_le (problem : CoverageProblem lower requirements)
    {matchedEdges : List CandidateEdge}
    (matchedFeasible : FeasibleSelection requirements (crews ++ matchedEdges))
    (feasible : FeasibleSelection requirements (crews ++ singles))
    (crewCenters : ∀ edge ∈ crews, edge.center ∈
      (coupledRequirements lower requirements).map CenterRequirement.center)
    {unavailable : Finset String}
    (matchedChoice : SingleChoice (singleRequirements lower requirements) unavailable matchedEdges)
    (choice : SingleChoice (singleRequirements lower requirements) unavailable singles)
    (longest : singles.length ≤ matchedEdges.length)
    (cheapest : singles.length = matchedEdges.length →
      toLex (overrideCount (matchedEdges.map decision),
          totalRankCost (matchedEdges.map decision)) ≤
        toLex (overrideCount (singles.map decision), totalRankCost (singles.map decision)) ∧
      (Apart lower ((singleRequirements lower requirements).map CenterRequirement.center) →
        Apart lower ((singleEdges lower (singleRequirements lower requirements) unavailable).map
          CandidateEdge.person) →
        toLex (overrideCount (matchedEdges.map decision),
            toLex (totalRankCost (matchedEdges.map decision),
              decisionKeys lower (matchedEdges.map decision))) ≤
          toLex (overrideCount (singles.map decision), toLex (totalRankCost (singles.map decision),
            decisionKeys lower (singles.map decision))))) :
    (selectionScore lower requirements (crews ++ matchedEdges)).costs ≤
        (selectionScore lower requirements (crews ++ singles)).costs ∧
      (Apart lower (requirements.map CenterRequirement.center) →
        selectionScore lower requirements (crews ++ matchedEdges) ≤
          selectionScore lower requirements (crews ++ singles)) := by
  have centers : ∀ edges, SingleChoice (singleRequirements lower requirements) unavailable edges →
      ∀ edge ∈ edges, edge.center ∈
        (singleRequirements lower requirements).map CenterRequirement.center := by
    intro edges single edge member
    obtain ⟨requirement, listed, same, -⟩ := problem.singleCenter single edge member
    exact same ▸ List.mem_map_of_mem listed
  have apart := fun edges single =>
    disjoint_crews_singles problem.distinct crewCenters (centers edges single)
  rw [selectionScore_append problem.distinct matchedFeasible.open (apart _ matchedChoice)
      matchedChoice.centers,
    selectionScore_append problem.distinct feasible.open (apart _ choice) choice.centers,
    costs_le_iff]
  constructor
  · refine lex_added_le longest (fun same => ?_) fun _ keys => keys
    have compared := (cheapest same).1
    simp only [Prod.Lex.toLex_le_toLex, le_refl, and_true, ← le_iff_lt_or_eq] at compared ⊢
    exact compared
  · intro centersApart
    have singlesApart : Apart lower
        ((singleRequirements lower requirements).map CenterRequirement.center) := by
      intro first firstMember second secondMember
      have known : ∀ name ∈ (singleRequirements lower requirements).map CenterRequirement.center,
          name ∈ requirements.map CenterRequirement.center := by
        intro name member
        obtain ⟨requirement, listed, rfl⟩ := List.mem_map.mp member
        exact List.mem_map_of_mem (mem_singles.mp listed).1
      exact centersApart first (known first firstMember) second (known second secondMember)
    have peopleApart : Apart lower ((singleEdges lower (singleRequirements lower requirements)
        unavailable).map CandidateEdge.person) := by
      have known : ∀ name ∈ (singleEdges lower (singleRequirements lower requirements)
          unavailable).map CandidateEdge.person,
          name ∈ requirements.flatMap fun requirement =>
            requirement.edges.map CandidateEdge.person := by
        intro name member
        obtain ⟨edge, inside, rfl⟩ := List.mem_map.mp member
        obtain ⟨⟨requirement, listed, candidate⟩, -⟩ := mem_singleEdges.mp inside
        exact List.mem_flatMap.mpr ⟨requirement, (mem_singles.mp listed).1,
          List.mem_map_of_mem (List.mem_append_left _ candidate)⟩
      intro first firstMember second secondMember
      exact problem.peopleApart first (known first firstMember) second (known second secondMember)
    refine lex_added_le longest (fun same => (cheapest same).2 singlesApart peopleApart)
      fun same keys => ?_
    unfold decisionKeys at keys ⊢
    rw [List.map_append, List.map_append, List.map_append, List.map_append,
      sortKeys_eq_of_perm List.perm_append_comm,
      sortKeys_eq_of_perm (@List.perm_append_comm _ (List.map _ (crews.map decision))
        (List.map _ (singles.map decision)))]
    exact sortKeys_append_le (by simpa using same.symm) keys _

/-- For all sufficiently large fuel the solver searches with the known matchings. -/
theorem solveMinimumCoverage_eventually (problem : CoverageProblem lower requirements)
    {matched : Finset String → List AssignmentDecision}
    (reached : ∀ unavailable, ∀ᶠ fuel in Filter.atTop,
      matchSingleRequirements lower fuel (singleRequirements lower requirements) unavailable =
        .ok (matched unavailable))
    {after : SearchState} {result : CoverageResult}
    (visited : (knownSearch lower requirements matched).visit lower
      (coupledRequirements lower requirements) 0 (reservedPeople requirements) [] {} = .ok after)
    (best : after.best = some result) :
    ∀ᶠ fuel in Filter.atTop, solveMinimumCoverage lower fuel requirements = .ok result := by
  have together : ∀ᶠ fuel in Filter.atTop,
      ∀ unavailable ∈ (knownSearch lower requirements matched).singleCandidatePeople.powerset,
        matchSingleRequirements lower fuel (singleRequirements lower requirements) unavailable =
          .ok (matched unavailable) :=
    (Filter.eventually_all_finset _).mpr fun unavailable _ => reached unavailable
  refine together.mono fun fuel agree => ?_
  have agrees : ∀ unavailable ⊆ (knownSearch lower requirements matched).singleCandidatePeople,
      ∀ decisions, (knownSearch lower requirements matched).matchSingles unavailable = .ok decisions →
        (coverageSearch lower fuel requirements).matchSingles unavailable = .ok decisions := by
    intro unavailable inside decisions same
    rw [← Except.ok.inj same]
    exact agree unavailable (Finset.mem_powerset.mpr inside)
  have crews : CrewsValid (coverageSearch lower fuel requirements).coupled := problem.crewsValid
  have levels : LevelsValid (coverageSearch lower fuel requirements).normalized
    (coverageSearch lower fuel requirements).coupled := problem.levelsValid
  have run : (coverageSearch lower fuel requirements).visit lower
      (coverageSearch lower fuel requirements).coupled 0
      (reservedPeople (coverageSearch lower fuel requirements).normalized) [] {} = .ok after := by
    change (coverageSearch lower fuel requirements).visit lower
      (coupledRequirements lower requirements) 0
      (reservedPeople (normalizedRequirements lower requirements)) [] {} = .ok after
    rw [reservedPeople_normalized]
    exact CoverageSearch.visit_mono (knownSearch lower requirements matched) agrees visited
  simp only [solveMinimumCoverage, crews, levels, not_true_eq_false, ↓reduceIte, run, bind,
    Except.bind, best]
  rfl

/-- **Minimum coverage is globally optimal.** -/
theorem solveMinimumCoverage_optimal (problem : CoverageProblem lower requirements) :
    ∃ result, (∀ᶠ fuel in Filter.atTop, solveMinimumCoverage lower fuel requirements = .ok result) ∧
      ∃ chosen, FeasibleSelection requirements chosen ∧
        result.decisions.Perm (chosen.map decision) ∧
        ∀ other, FeasibleSelection requirements other →
          (selectionScore lower requirements chosen).costs ≤
              (selectionScore lower requirements other).costs ∧
            (Apart lower (requirements.map CenterRequirement.center) →
              selectionScore lower requirements chosen ≤ selectionScore lower requirements other) := by
  have spec := fun unavailable => @matchSingleRequirements_optimal lower
    (singleRequirements lower requirements) unavailable problem.singleProblem
  choose singles reached choice bestSingles using spec
  let matched := fun unavailable => sortDecisions lower ((singles unavailable).map decision)
  let search := knownSearch lower requirements matched
  have searchProblem : SearchProblem search matched := problem.searchProblem choice
  obtain ⟨after, visited, progress, bestCrews⟩ :=
    @CoverageSearch.visit_spec lower search (reservedPeople requirements) matched
      searchProblem search.coupled [] rfl
      (reservedPeople requirements) [] {} ⟨.done _, by simp⟩ ⟨by simp, by simp⟩ (by
        intro entry member
        exact absurd member List.not_mem_nil)
  obtain ⟨result, isBest, -⟩ := bestCrews [] (CrewChoice.none _ _)
  obtain ⟨crews, crewChoice, assembled⟩ := progress.sound.best result isBest
  refine ⟨result, solveMinimumCoverage_eventually problem reached visited isBest, ?_⟩
  let unavailable := fun edges => (reservedPeople requirements ∪ peopleOf edges) ∩
    search.singleCandidatePeople
  have candidatesListed : ∀ requirement ∈ singleRequirements lower requirements,
      ∀ edge ∈ requirement.candidates, edge.person ∈ search.singleCandidatePeople :=
    fun requirement listed edge candidate => List.mem_toFinset.mpr
      (List.mem_flatMap.mpr ⟨requirement, listed, List.mem_map_of_mem candidate⟩)
  have leafFeasible : ∀ edges, CrewChoice CenterRequirement.crewOptions (coupledRequirements lower requirements)
      (reservedPeople requirements) edges →
      FeasibleSelection requirements (edges ++ singles (unavailable edges)) :=
    fun edges crew => problem.feasible_append crew candidatesListed (choice _)
  have leafPerm : ∀ edges, (search.leaf matched edges (reservedPeople requirements ∪
      peopleOf edges)).Perm ((edges ++ singles (unavailable edges)).map decision) := by
    intro edges
    rw [List.map_append]
    exact (sortBy_perm _ _).append_left _
  have leafScores : ∀ edges, CrewChoice CenterRequirement.crewOptions (coupledRequirements lower requirements)
      (reservedPeople requirements) edges →
      search.leafScore lower matched edges (reservedPeople requirements ∪ peopleOf edges) =
        selectionScore lower requirements (edges ++ singles (unavailable edges)) :=
    fun edges crew => resultScore_eq_selectionScore problem.distinct (leafPerm edges)
      (((leafFeasible edges crew).open.perm (leafPerm edges).symm).normalized)
  refine ⟨crews ++ singles (unavailable crews), leafFeasible crews crewChoice, ?_, ?_⟩
  · rw [assembled]
    exact (sortBy_perm _ _).trans (leafPerm crews)
  · intro other feasible
    have reservedApart : Disjoint (peopleOf (chosenAmong other
        ((coupledRequirements lower requirements).map CenterRequirement.center)))
        (reservedPeople requirements) := by
      rw [Finset.disjoint_left]
      intro name inCrew held
      obtain ⟨edge, member, rfl⟩ := List.mem_map.mp (List.mem_toFinset.mp inCrew)
      obtain ⟨requirement, listed, holds⟩ := List.mem_flatMap.mp (List.mem_toFinset.mp held)
      exact feasible.unreserved edge (List.mem_of_mem_filter member) requirement listed holds
    obtain ⟨more, moreChoice, perm⟩ := exists_crewChoice feasible.people
      (coupledRequirements lower requirements) (fun requirement member =>
        feasible.crew requirement (mem_coupled.mp member).1 (mem_coupled.mp member).2)
      (coupled_distinct problem.distinct) (reservedPeople requirements) reservedApart
    obtain ⟨best, same, below⟩ := bestCrews more moreChoice
    obtain rfl : result = best := Option.some.inj (isBest.symm.trans same)
    rw [assembled, List.nil_append] at below
    change search.leafScore lower matched crews _ ≤ search.leafScore lower matched more _ at below
    rw [leafScores crews crewChoice, leafScores more moreChoice] at below
    have split := (feasible.perm_append lower problem.distinct).trans (perm.symm.append_right _)
    have fewer : unavailable more ⊆ reservedPeople requirements ∪ peopleOf (chosenAmong other
        ((coupledRequirements lower requirements).map CenterRequirement.center)) := by
      rw [← peopleOf_perm perm]
      exact Finset.inter_subset_left
    have singleChoice := (feasible.singleChoice problem.distinct).mono fewer
    obtain ⟨longest, cheapest⟩ := bestSingles (unavailable more) _ singleChoice
    obtain ⟨costs, keys⟩ := problem.selectionScore_matching_le (leafFeasible more moreChoice)
      (feasible.perm split) (moreChoice.centers problem.crewOwn) (choice (unavailable more))
      singleChoice longest cheapest
    rw [selectionScore_perm split]
    exact ⟨(Score.costs_mono below).trans costs, fun apart => below.trans (keys apart)⟩

end Optimal

/-- A saw that needs two people and a press that needs one of them. -/
def sawAndPress : List CenterRequirement :=
  [{ center := "saw"
     group := "cutting"
     remainingSlots := 2
     crewOptions := [⟨"saw", [⟨"ann", "saw", 3, .primary, 0⟩, ⟨"bob", "saw", 2, .regular, 4⟩]⟩] },
   { center := "press"
     group := "forming"
     remainingSlots := 1
     candidates := [⟨"bob", "press", 1, .never, 0⟩, ⟨"cy", "press", 1, .occasional, 7⟩] }]

theorem solveMinimumCoverage_optimal_sawAndPress :
    ∃ result, (∀ᶠ fuel in Filter.atTop, solveMinimumCoverage id fuel sawAndPress = .ok result) ∧
      ∃ chosen, FeasibleSelection sawAndPress chosen ∧
        result.decisions.Perm (chosen.map decision) ∧
        ∀ other, FeasibleSelection sawAndPress other →
          (selectionScore id sawAndPress chosen).costs ≤ (selectionScore id sawAndPress other).costs ∧
            (Apart id (sawAndPress.map CenterRequirement.center) →
              selectionScore id sawAndPress chosen ≤ selectionScore id sawAndPress other) :=
  solveMinimumCoverage_optimal ⟨by decide +kernel, by decide +kernel, by decide +kernel,
    by decide +kernel, by decide +kernel, by decide +kernel⟩

/-- Three centers, two of whose names are equal once lower-cased, and two people. -/
def equalOnceLowered : List CenterRequirement :=
  [{ center := "A"
     group := "cutting"
     remainingSlots := 1
     candidates := [⟨"p2", "A", 1, .regular, 5⟩] },
   { center := "a"
     group := "cutting"
     remainingSlots := 1
     candidates := [⟨"p1", "a", 1, .regular, 5⟩] },
   { center := "b"
     group := "cutting"
     remainingSlots := 1
     candidates := [⟨"p1", "b", 1, .regular, 0⟩, ⟨"p2", "b", 1, .regular, 0⟩] }]

/-- Lower-casing as far as the names here need it. -/
def lowerA (name : String) : String := if name = "A" then "a" else name

/-- Center names that differ only in case: a selection with earlier decisions exists. -/
theorem solveMinimumCoverage_not_first :
    CoverageProblem lowerA equalOnceLowered ∧
      ∃ result, (∀ᶠ fuel in Filter.atTop,
          solveMinimumCoverage lowerA fuel equalOnceLowered = .ok result) ∧
        ∃ chosen other, FeasibleSelection equalOnceLowered chosen ∧
          result.decisions.Perm (chosen.map decision) ∧
          FeasibleSelection equalOnceLowered other ∧
          selectionScore lowerA equalOnceLowered other <
            selectionScore lowerA equalOnceLowered chosen := by
  refine ⟨⟨by decide +kernel, by decide +kernel, by decide +kernel, by decide +kernel,
    by decide +kernel, by decide +kernel⟩, ?_⟩
  have run : (solveMinimumCoverage lowerA 20 equalOnceLowered).toOption.map
      CoverageResult.decisions =
        some (([⟨"p2", "A", 1, .regular, 5⟩, ⟨"p1", "b", 1, .regular, 0⟩] :
          List CandidateEdge).map decision) := by decide +kernel
  cases solved : solveMinimumCoverage lowerA 20 equalOnceLowered with
  | error failure => rw [solved] at run; cases run
  | ok result =>
      rw [solved] at run
      refine ⟨result, Filter.eventually_atTop.mpr ⟨20, fun fuel enough =>
        solveMinimumCoverage_mono enough solved⟩,
        [⟨"p2", "A", 1, .regular, 5⟩, ⟨"p1", "b", 1, .regular, 0⟩],
        [⟨"p1", "a", 1, .regular, 5⟩, ⟨"p2", "b", 1, .regular, 0⟩], ?_, ?_, ?_, ?_⟩
      · exact ⟨by decide +kernel, by decide +kernel, by decide +kernel, by decide +kernel,
          by decide +kernel, by decide +kernel⟩
      · exact .of_eq (Option.some.inj run)
      · exact ⟨by decide +kernel, by decide +kernel, by decide +kernel, by decide +kernel,
          by decide +kernel, by decide +kernel⟩
      · decide +kernel

end PlantManager.Solver

import PlantManager.Solver.CoverageScore
import PlantManager.Solver.CrewChoice

/-! # The pruned search misses no better crews

`Solver.CoverageSearch.visit_spec`: a visit ends with a best result that
is at least as good as the result of every choice of crews for the centers still
open. States left out are dominated by a state visited before, or cannot staff as
many centers as the best result.
-/

namespace PlantManager.Solver

open Ranking

/-- What the search relies on: centers are distinct, crews are for their own center,
and the matching of the single centers always returns. -/
structure SearchProblem (search : CoverageSearch)
    (matched : Finset String → List AssignmentDecision) : Prop where
  distinct : (search.normalized.map CenterRequirement.center).Nodup
  coupledDistinct : (search.coupled.map CenterRequirement.center).Nodup
  coupledListed : ∀ requirement ∈ search.coupled,
    requirement ∈ search.normalized ∧ requirement.remainingSlots ≠ 0
  singlesListed : ∀ requirement ∈ search.singles, requirement ∈ search.normalized ∧
    requirement.remainingSlots ≠ 0 ∧
      requirement.center ∉ search.coupled.map CenterRequirement.center
  ownCenter : ∀ requirement ∈ search.coupled, ∀ option ∈ requirement.crewOptions,
    ∀ member ∈ option.members, member.center = requirement.center
  crewDistinct : ∀ requirement ∈ search.coupled, ∀ option ∈ requirement.crewOptions,
    option.people.Nodup
  matching : ∀ unavailable ⊆ search.singleCandidatePeople,
    search.matchSingles unavailable = .ok (matched unavailable)
  matchedCenter : ∀ unavailable, ∀ item ∈ matched unavailable,
    ∃ requirement ∈ search.singles, requirement.center = item.center

namespace CoverageSearch

variable (lower : String → String) (search : CoverageSearch) (reserved : Finset String)
  (matched : Finset String → List AssignmentDecision)

/-- The decisions of the result reached with these crews. -/
def leaf (chosen : List CandidateEdge) (usedPeople : Finset String) : List AssignmentDecision :=
  chosen.map decision ++ matched (usedPeople ∩ search.singleCandidatePeople)

def leafScore (chosen : List CandidateEdge) (usedPeople : Finset String) : Score :=
  resultScore lower (assembleResult lower search.normalized (search.leaf matched chosen usedPeople))

/-- Crews for the first centers and the people then in use. -/
def Reached (index : ℕ) (usedPeople : Finset String) (chosen : List CandidateEdge) : Prop :=
  CrewChoice CenterRequirement.crewOptions (search.coupled.take index) reserved chosen ∧ usedPeople = reserved ∪ peopleOf chosen

/-- The best result is at least as good as a score. -/
def AtMost (best : Option CoverageResult) (score : Score) : Prop :=
  ∃ result, best = some result ∧ resultScore lower result ≤ score

/-- The best result is at least as good as any result beyond a visited state. -/
def Covered (best : Option CoverageResult) (index : ℕ) (usedPeople : Finset String)
    (score : Score) : Prop :=
  ∀ chosen more, search.Reached reserved index usedPeople chosen →
    score ≤ prefixScore lower (chosen.map decision) →
    CrewChoice CenterRequirement.crewOptions (search.coupled.drop index) usedPeople more →
    AtMost lower best (search.leafScore lower matched (chosen ++ more) (usedPeople ∪ peopleOf more))

/-- The best result comes from a choice of crews, and the cache holds matchings. -/
structure Sound (state : SearchState) : Prop where
  best : ∀ result, state.best = some result → ∃ chosen,
    CrewChoice CenterRequirement.crewOptions search.coupled reserved chosen ∧ result = assembleResult lower search.normalized
      (search.leaf matched chosen (reserved ∪ peopleOf chosen))
  cache : ∀ key value, (key, value) ∈ state.singleMatchCache → value = matched key

/-- Every state visited at this depth or below is covered. -/
def Explored (level : ℕ) (state : SearchState) : Prop :=
  ∀ entry ∈ state.seenPrefix, level ≤ entry.1.1 →
    search.Covered lower reserved matched state.best entry.1.1 entry.1.2 entry.2

/-- What a visit at this depth changes. -/
structure Progress (level : ℕ) (before after : SearchState) : Prop where
  sound : search.Sound lower reserved matched after
  explored : search.Explored lower reserved matched level after
  kept : ∀ entry ∈ after.seenPrefix, entry.1.1 < level → entry ∈ before.seenPrefix
  improved : ∀ score, AtMost lower before.best score → AtMost lower after.best score

variable {lower search reserved matched}

theorem Covered.mono {best better : Option CoverageResult} {index : ℕ} {usedPeople : Finset String}
    {score : Score} (covered : search.Covered lower reserved matched best index usedPeople score)
    (improved : ∀ score, AtMost lower best score → AtMost lower better score) :
    search.Covered lower reserved matched better index usedPeople score :=
  fun chosen more reached below choice => improved _ (covered chosen more reached below choice)

theorem Progress.refl {level : ℕ} {state : SearchState}
    (sound : search.Sound lower reserved matched state)
    (explored : search.Explored lower reserved matched level state) :
    search.Progress lower reserved matched level state state :=
  ⟨sound, explored, fun _ member _ => member, fun _ atMost => atMost⟩

theorem Progress.trans {level : ℕ} {before middle after : SearchState}
    (first : search.Progress lower reserved matched level before middle)
    (second : search.Progress lower reserved matched level middle after) :
    search.Progress lower reserved matched level before after :=
  ⟨second.sound, second.explored,
    fun entry member below => first.kept entry (second.kept entry member below) below,
    fun score atMost => second.improved score (first.improved score atMost)⟩

section Scores

variable (problem : SearchProblem search matched)

include problem

variable {chosen more : List CandidateEdge} {usedPeople : Finset String} {index : ℕ}

theorem open_crews
    (centers : ∀ edge ∈ chosen, edge.center ∈ search.coupled.map CenterRequirement.center) :
    Open search.normalized (chosen.map decision) := by
  intro item member
  obtain ⟨edge, inside, rfl⟩ := List.mem_map.mp member
  obtain ⟨requirement, listed, same⟩ := List.mem_map.mp (centers edge inside)
  obtain ⟨known, positive⟩ := problem.coupledListed requirement listed
  exact ⟨requirement, known, same, positive⟩

theorem open_matched (unavailable : Finset String) :
    Open search.normalized (matched unavailable) := by
  intro item member
  obtain ⟨requirement, listed, same⟩ := problem.matchedCenter unavailable item member
  obtain ⟨known, positive, -⟩ := problem.singlesListed requirement listed
  exact ⟨requirement, known, same, positive⟩

variable {part : List CenterRequirement} {decisions : List AssignmentDecision}

theorem crew_centers (inside : part ⊆ search.coupled)
    (choice : CrewChoice CenterRequirement.crewOptions part usedPeople chosen) :
    ∀ edge ∈ chosen, edge.center ∈ part.map CenterRequirement.center :=
  choice.centers fun requirement listed => problem.ownCenter requirement (inside listed)

theorem disjoint_matched
    (centers : ∀ edge ∈ chosen, edge.center ∈ search.coupled.map CenterRequirement.center)
    (unavailable : Finset String) :
    List.Disjoint ((chosen.map decision).map AssignmentDecision.center)
      ((matched unavailable).map AssignmentDecision.center) := by
  intro name inCrews inMatched
  obtain ⟨item, member, rfl⟩ := List.mem_map.mp inMatched
  obtain ⟨requirement, listed, same⟩ := problem.matchedCenter unavailable item member
  obtain ⟨-, -, apart⟩ := problem.singlesListed requirement listed
  obtain ⟨other, crew, center⟩ := List.mem_map.mp inCrews
  obtain ⟨edge, inside, rfl⟩ := List.mem_map.mp crew
  rw [same, ← center] at apart
  exact apart (centers edge inside)

theorem disjoint_take_drop (early : ∀ edge ∈ chosen,
      edge.center ∈ (search.coupled.take index).map CenterRequirement.center)
    (late : ∀ edge ∈ more, edge.center ∈ (search.coupled.drop index).map CenterRequirement.center) :
    List.Disjoint ((chosen.map decision).map AssignmentDecision.center)
      ((more.map decision).map AssignmentDecision.center) := by
  have distinct := problem.coupledDistinct
  rw [← List.take_append_drop index search.coupled, List.map_append, List.nodup_append] at distinct
  intro name first second
  rw [List.map_map] at first second
  obtain ⟨edge, inside, rfl⟩ := List.mem_map.mp first
  obtain ⟨other, after, same⟩ := List.mem_map.mp second
  refine distinct.2.2 _ (early edge inside) _ (late other after) ?_
  exact same.symm

/-- The crews and the rest of a leaf are for different centers. -/
theorem disjoint_leaf (early : ∀ edge ∈ chosen,
      edge.center ∈ (search.coupled.take index).map CenterRequirement.center)
    (late : ∀ edge ∈ more, edge.center ∈ (search.coupled.drop index).map CenterRequirement.center)
    (unavailable : Finset String) :
    List.Disjoint ((chosen.map decision).map AssignmentDecision.center)
      ((more.map decision ++ matched unavailable).map AssignmentDecision.center) := by
  rw [List.map_append, List.disjoint_append_right]
  refine ⟨disjoint_take_drop problem early late, disjoint_matched problem (fun edge inside => ?_) _⟩
  exact List.map_subset _ (List.take_subset _ _) (early edge inside)

theorem open_leaf
    (centers : ∀ edge ∈ chosen, edge.center ∈ search.coupled.map CenterRequirement.center)
    (usedPeople : Finset String) : Open search.normalized (search.leaf matched chosen usedPeople) :=
  (open_crews problem centers).append (open_matched problem _)

theorem Reached.centers (reached : search.Reached reserved index usedPeople chosen) :
    ∀ edge ∈ chosen, edge.center ∈ (search.coupled.take index).map CenterRequirement.center :=
  crew_centers problem (List.take_subset _ _) reached.1

theorem centers_append {index : ℕ} {usedPeople : Finset String} {chosen more : List CandidateEdge}
    (reached : search.Reached reserved index usedPeople chosen)
    (choice : CrewChoice CenterRequirement.crewOptions (search.coupled.drop index) usedPeople more) :
    ∀ edge ∈ chosen ++ more, edge.center ∈ search.coupled.map CenterRequirement.center := by
  intro edge member
  rcases List.mem_append.mp member with early | late
  · exact List.map_subset _ (List.take_subset _ _) (Reached.centers problem reached edge early)
  · exact List.map_subset _ (List.drop_subset _ _)
      (crew_centers problem (List.drop_subset _ _) choice edge late)

/-- **Dominated states**: with the same people in use, better crews lead to better
results whatever is chosen later. -/
theorem leafScore_le_of_reached {other : List CandidateEdge}
    (reached : search.Reached reserved index usedPeople chosen)
    (otherReached : search.Reached reserved index usedPeople other)
    (choice : CrewChoice CenterRequirement.crewOptions (search.coupled.drop index) usedPeople more)
    (below : prefixScore lower (chosen.map decision) ≤ prefixScore lower (other.map decision)) :
    search.leafScore lower matched (chosen ++ more) (usedPeople ∪ peopleOf more) ≤
      search.leafScore lower matched (other ++ more) (usedPeople ∪ peopleOf more) := by
  have nodup : ∀ requirement ∈ search.coupled.take index, ∀ option ∈ requirement.crewOptions,
      option.people.Nodup := fun requirement listed =>
    problem.crewDistinct requirement (List.take_subset _ _ listed)
  have sameLength : chosen.length = other.length := by
    have first := reached.1.card_people nodup
    have second := otherReached.1.card_people nodup
    rw [← reached.2] at first
    rw [← otherReached.2] at second
    omega
  have late := crew_centers problem (List.drop_subset index _) choice
  have firstOpen := open_leaf problem (centers_append problem reached choice)
    (usedPeople ∪ peopleOf more)
  have secondOpen := open_leaf problem (centers_append problem otherReached choice)
    (usedPeople ∪ peopleOf more)
  unfold leafScore
  unfold leaf at firstOpen secondOpen ⊢
  rw [List.map_append, List.append_assoc] at firstOpen secondOpen ⊢
  rw [List.map_append, List.append_assoc]
  exact resultScore_append_le problem.distinct firstOpen secondOpen (by simpa using sameLength)
    (disjoint_leaf problem (Reached.centers problem reached) late _)
    (disjoint_leaf problem (Reached.centers problem otherReached) late _) below

omit problem in
theorem length_staffedNames_le
    (inside : ∀ item ∈ decisions, item.center ∈ part.map CenterRequirement.center) :
    (staffedNames decisions).length ≤ part.length := by
  rw [← List.length_map CenterRequirement.center]
  refine ((List.nodup_dedup _).subperm fun name member => ?_).length_le
  obtain ⟨item, present, rfl⟩ := List.mem_map.mp (List.mem_dedup.mp member)
  exact inside item present

/-- **Hopeless states**: a state that cannot staff as many centers as the best result
is covered. -/
theorem covered_of_optimistic_lt {best : CoverageResult}
    (hopeless : search.optimistic index decisions < best.staffedCenters.length) :
    search.Covered lower reserved matched (some best) index usedPeople
      (prefixScore lower decisions) := by
  intro chosen more reached below choice
  refine ⟨best, rfl, le_of_lt ?_⟩
  have late := crew_centers problem (List.drop_subset index _) choice
  have early := Reached.centers problem reached
  have isOpen := open_leaf problem (centers_append problem reached choice)
    (usedPeople ∪ peopleOf more)
  have fewer : (staffedNames (chosen.map decision)).length ≤ (staffedNames decisions).length := by
    unfold prefixScore at below
    simp only [Prod.Lex.toLex_le_toLex] at below
    unfold staffedNames
    omega
  have crews : (staffedNames (more.map decision)).length ≤ search.coupled.length - index := by
    rw [← List.length_drop]
    refine length_staffedNames_le fun item member => ?_
    obtain ⟨edge, inside, rfl⟩ := List.mem_map.mp member
    exact late edge inside
  have singles : (staffedNames (matched ((usedPeople ∪ peopleOf more) ∩
      search.singleCandidatePeople))).length ≤ search.singles.length := by
    refine length_staffedNames_le fun item member => ?_
    obtain ⟨requirement, listed, same⟩ := problem.matchedCenter _ item member
    exact same ▸ List.mem_map_of_mem listed
  have crewCenters : ∀ edge ∈ more, edge.center ∈ search.coupled.map CenterRequirement.center :=
    fun edge inside => List.map_subset _ (List.drop_subset _ _) (late edge inside)
  have apart := disjoint_matched problem crewCenters
    ((usedPeople ∪ peopleOf more) ∩ search.singleCandidatePeople)
  unfold leafScore
  rw [resultScore_assembleResult problem.distinct isOpen]
  unfold leaf resultScore
  rw [List.map_append, List.append_assoc,
    length_staffedNames_append (disjoint_leaf problem early late _),
    length_staffedNames_append apart, Prod.Lex.toLex_lt_toLex]
  left
  change _ + (staffedNames decisions).length + _ + _ < _ at hopeless
  dsimp only
  omega

end Scores

section Visit

theorem mem_of_lookup {α β : Type*} [BEq α] [LawfulBEq α] {entries : List (α × β)} {key : α}
    {value : β} (found : entries.lookup key = some value) : (key, value) ∈ entries := by
  induction entries with
  | nil => simp at found
  | cons entry rest ih =>
      obtain ⟨other, stored⟩ := entry
      rw [List.lookup_cons] at found
      by_cases same : key == other
      · rw [same] at found
        obtain rfl := Option.some.inj found
        rw [eq_of_beq same]
        exact List.mem_cons_self
      · rw [Bool.not_eq_true] at same
        rw [same] at found
        exact List.mem_cons_of_mem _ (ih found)

variable (problem : SearchProblem search matched)

variable {state : SearchState} {done rest : List CenterRequirement}
  {requirement : CenterRequirement}

theorem exists_of_dominated {key : ℕ × Finset String} {score : Score}
    (dominated : state.dominated key score = true) :
    ∃ previous ≤ score, (key, previous) ∈ state.seenPrefix := by
  unfold SearchState.dominated at dominated
  cases found : state.seenPrefix.lookup key with
  | none => simp [found] at dominated
  | some previous =>
      simp only [found, decide_eq_true_eq] at dominated
      exact ⟨previous, dominated, mem_of_lookup found⟩

/-- Entering a state: it was visited before at least as well, or it is recorded, and
then it is left only when it is hopeless. -/
theorem enter_cases (index : ℕ) (usedPeople : Finset String) (decisions : List AssignmentDecision)
    (state : SearchState) :
    (search.enter lower index usedPeople decisions state = (state, false) ∧
        ∃ previous ≤ prefixScore lower decisions,
          ((index, usedPeople), previous) ∈ state.seenPrefix) ∨
      (search.enter lower index usedPeople decisions state =
          (state.record (index, usedPeople) (prefixScore lower decisions), false) ∧
        ∃ best, state.best = some best ∧
          search.optimistic index decisions < best.staffedCenters.length) ∨
      search.enter lower index usedPeople decisions state =
        (state.record (index, usedPeople) (prefixScore lower decisions), true) := by
  by_cases dominated : state.dominated (index, usedPeople) (prefixScore lower decisions) = true
  · left
    exact ⟨if_pos dominated, exists_of_dominated dominated⟩
  · right
    unfold enter
    rw [if_neg dominated]
    cases state.best with
    | none => exact Or.inr rfl
    | some best =>
        by_cases hopeless : search.optimistic index decisions < best.staffedCenters.length
        · left
          exact ⟨by simp only [hopeless, decide_true, Bool.not_true], best, rfl, hopeless⟩
        · right
          simp only [hopeless, decide_false, Bool.not_false]

include problem

/-- The cache returns what the matching returns. -/
theorem cachedMatch_spec {cache : List (Finset String × List AssignmentDecision)}
    (valid : ∀ key value, (key, value) ∈ cache → value = matched key) (unavailable : Finset String)
    (inside : unavailable ⊆ search.singleCandidatePeople) :
    ∃ next, search.cachedMatch unavailable cache = .ok (matched unavailable, next) ∧
      ∀ key value, (key, value) ∈ next → value = matched key := by
  unfold cachedMatch
  cases stored : cache.lookup unavailable with
  | some result =>
      rw [valid _ _ (mem_of_lookup stored)]
      exact ⟨cache, rfl, valid⟩
  | none =>
      refine ⟨(unavailable, matched unavailable) :: cache, ?_, fun key value member => ?_⟩
      · rw [problem.matching _ inside]
        rfl
      · rcases List.mem_cons.mp member with same | old
        · obtain ⟨rfl, rfl⟩ := Prod.mk.inj same
          rfl
        · exact valid key value old

variable {chosen : List CandidateEdge} {usedPeople : Finset String}

/-- Finishing keeps the better of the best result and the result of the crews. -/
theorem finish_spec (reached : search.Reached reserved search.coupled.length usedPeople chosen)
    (sound : search.Sound lower reserved matched state) :
    ∃ after, search.finish lower usedPeople (chosen.map decision) state = .ok after ∧
      search.Sound lower reserved matched after ∧ after.seenPrefix = state.seenPrefix ∧
      (∀ score, AtMost lower state.best score → AtMost lower after.best score) ∧
      AtMost lower after.best (search.leafScore lower matched chosen usedPeople) := by
  obtain ⟨cache, found, valid⟩ := cachedMatch_spec problem sound.cache
    (usedPeople ∩ search.singleCandidatePeople) Finset.inter_subset_right
  let candidate := assembleResult lower search.normalized
    (search.leaf matched chosen usedPeople)
  refine ⟨{ state with
    singleMatchCache := cache
    best := if resultIsBetter lower candidate state.best then some candidate else state.best },
    ?_, ⟨?_, valid⟩, rfl, ?_, ?_⟩
  · simp only [finish, found]
    rfl
  · intro result isBest
    split at isBest
    · obtain rfl := Option.some.inj isBest
      refine ⟨chosen, ?_, ?_⟩
      · have choice := reached.1
        rwa [List.take_length] at choice
      · rw [← reached.2]
    · exact sound.best result isBest
  · rintro score ⟨result, isBest, below⟩
    split
    · rename_i better
      rw [isBest, resultIsBetter_iff] at better
      exact ⟨candidate, rfl, better.le.trans below⟩
    · exact ⟨result, isBest, below⟩
  · simp only
    split
    · exact ⟨candidate, rfl, le_rfl⟩
    · rename_i notBetter
      cases isBest : state.best with
      | none => exact absurd (by rw [isBest]; rfl) notBetter
      | some result =>
          rw [isBest, resultIsBetter_iff, not_lt] at notBetter
          exact ⟨result, rfl, notBetter⟩

omit problem in
theorem Reached.skip (split : search.coupled = done ++ requirement :: rest)
    (reached : search.Reached reserved done.length usedPeople chosen) :
    search.Reached reserved (done.length + 1) usedPeople chosen := by
  have taken : search.coupled.take (done.length + 1) =
      search.coupled.take done.length ++ [requirement] := by simp [split, List.take_append]
  refine ⟨?_, reached.2⟩
  rw [taken, ← List.append_nil chosen]
  exact reached.1.append (.skip (.done _))

omit problem in
theorem Reached.take (split : search.coupled = done ++ requirement :: rest)
    (reached : search.Reached reserved done.length usedPeople chosen) {option : CrewOption}
    (offered : option ∈ requirement.crewOptions)
    (apart : Disjoint option.people.toFinset usedPeople) :
    search.Reached reserved (done.length + 1) (usedPeople ∪ option.people.toFinset)
      (chosen ++ option.members) := by
  have taken : search.coupled.take (done.length + 1) =
      search.coupled.take done.length ++ [requirement] := by simp [split, List.take_append]
  refine ⟨?_, ?_⟩
  · rw [taken]
    refine reached.1.append ?_
    rw [← List.append_nil option.members]
    refine .take offered ?_ (.done _)
    rwa [← reached.2]
  · rw [peopleOf_append, peopleOf_members, ← Finset.union_assoc, ← reached.2]

/-- Recording a state covers it when the best result is at least as good as every
result beyond it. -/
theorem Explored.record {level : ℕ} {usedPeople : Finset String} {chosen : List CandidateEdge}
    {state : SearchState} (explored : search.Explored lower reserved matched level state)
    (reached : search.Reached reserved level usedPeople chosen)
    {best : Option CoverageResult}
    (improved : ∀ score, AtMost lower state.best score → AtMost lower best score)
    (beyond : ∀ more, CrewChoice CenterRequirement.crewOptions (search.coupled.drop level) usedPeople more →
      AtMost lower best (search.leafScore lower matched (chosen ++ more)
        (usedPeople ∪ peopleOf more))) :
    ∀ entry ∈ (state.record (level, usedPeople) (prefixScore lower (chosen.map decision))).seenPrefix,
      level ≤ entry.1.1 →
        search.Covered lower reserved matched best entry.1.1 entry.1.2 entry.2 := by
  intro entry member below
  rcases List.mem_cons.mp member with rfl | old
  · intro other more otherReached worse choice
    obtain ⟨result, isBest, good⟩ := beyond more choice
    exact ⟨result, isBest,
      good.trans (leafScore_le_of_reached problem reached otherReached choice worse)⟩
  · exact (explored entry old below).mono improved

/-- What a visit from some crews achieves. -/
def VisitSpec (lower : String → String) (search : CoverageSearch) (reserved : Finset String)
    (matched : Finset String → List AssignmentDecision) (level : ℕ) (rest : List CenterRequirement) :
    Prop :=
  ∀ usedPeople chosen state, search.Reached reserved level usedPeople chosen →
    search.Sound lower reserved matched state → search.Explored lower reserved matched level state →
    ∃ after, search.visit lower rest level usedPeople (chosen.map decision) state = .ok after ∧
      search.Progress lower reserved matched level state after ∧
      ∀ more, CrewChoice CenterRequirement.crewOptions rest usedPeople more → AtMost lower after.best
        (search.leafScore lower matched (chosen ++ more) (usedPeople ∪ peopleOf more))

omit problem in
/-- Trying the options of a center one after the other. -/
theorem foldlM_visit_spec {requirement : CenterRequirement} {done rest : List CenterRequirement}
    (split : search.coupled = done ++ requirement :: rest)
    (later : VisitSpec lower search reserved matched (done.length + 1) rest)
    {usedPeople : Finset String} {chosen : List CandidateEdge}
    (reached : search.Reached reserved done.length usedPeople chosen) :
    ∀ options : List CrewOption, options ⊆ requirement.crewOptions → ∀ state,
      search.Sound lower reserved matched state →
      search.Explored lower reserved matched (done.length + 1) state →
      ∃ after, options.foldlM (fun current option =>
          if (option.people.toFinset ∩ usedPeople).Nonempty then .ok current
          else search.visit lower rest (done.length + 1) (usedPeople ∪ option.people.toFinset)
            (chosen.map decision ++ crewDecisions option) current) state = .ok after ∧
        search.Progress lower reserved matched (done.length + 1) state after ∧
        ∀ option ∈ options, Disjoint option.people.toFinset usedPeople → ∀ more,
          CrewChoice CenterRequirement.crewOptions rest (usedPeople ∪ option.people.toFinset) more → AtMost lower after.best
            (search.leafScore lower matched (chosen ++ (option.members ++ more))
              (usedPeople ∪ peopleOf (option.members ++ more))) := by
  intro options
  induction options with
  | nil =>
      intro _ state sound explored
      exact ⟨state, rfl, .refl sound explored, by simp⟩
  | cons option options ih =>
      intro offered state sound explored
      obtain ⟨isOffered, othersOffered⟩ := List.cons_subset.mp offered
      by_cases apart : Disjoint option.people.toFinset usedPeople
      · obtain ⟨middle, visited, progress, best⟩ :=
          later _ _ state (reached.take split isOffered apart) sound explored
        obtain ⟨after, folded, further, others⟩ :=
          ih othersOffered middle progress.sound progress.explored
        refine ⟨after, ?_, progress.trans further, ?_⟩
        · have compatible : ¬ (option.people.toFinset ∩ usedPeople).Nonempty := by
            rwa [Finset.not_nonempty_iff_eq_empty, ← Finset.disjoint_iff_inter_eq_empty]
          rw [List.map_append] at visited
          rw [List.foldlM_cons, if_neg compatible, crewDecisions, visited]
          exact folded
        · intro other member otherApart more choice
          rcases List.mem_cons.mp member with rfl | inRest
          · have found := further.improved _ (best more choice)
            rwa [List.append_assoc, Finset.union_assoc, ← peopleOf_members, ← peopleOf_append]
              at found
          · exact others other inRest otherApart more choice
      · obtain ⟨after, folded, progress, others⟩ := ih othersOffered state sound explored
        refine ⟨after, ?_, progress, ?_⟩
        · have overlap : (option.people.toFinset ∩ usedPeople).Nonempty := by
            rwa [Finset.disjoint_iff_inter_eq_empty, ← Finset.not_nonempty_iff_eq_empty,
              not_not] at apart
          rw [List.foldlM_cons, if_pos overlap]
          exact folded
        · intro other member otherApart more choice
          rcases List.mem_cons.mp member with rfl | inRest
          · exact absurd otherApart apart
          · exact others other inRest otherApart more choice

omit problem in
theorem Sound.record (sound : search.Sound lower reserved matched state) (key : ℕ × Finset String)
    (score : Score) :
    search.Sound lower reserved matched (state.record key score) := ⟨sound.best, sound.cache⟩

/-- A state that is not explored is covered. -/
theorem enter_spec {level : ℕ} {usedPeople : Finset String} {chosen : List CandidateEdge}
    {state : SearchState} (reached : search.Reached reserved level usedPeople chosen)
    (sound : search.Sound lower reserved matched state)
    (explored : search.Explored lower reserved matched level state) :
    (∃ after, search.enter lower level usedPeople (chosen.map decision) state = (after, false) ∧
        search.Progress lower reserved matched level state after ∧
        ∀ more, CrewChoice CenterRequirement.crewOptions (search.coupled.drop level) usedPeople more → AtMost lower after.best
          (search.leafScore lower matched (chosen ++ more) (usedPeople ∪ peopleOf more))) ∨
      search.enter lower level usedPeople (chosen.map decision) state =
        (state.record (level, usedPeople) (prefixScore lower (chosen.map decision)), true) := by
  rcases search.enter_cases level usedPeople (chosen.map decision) state with
    ⟨entered, previous, below, visited⟩ | ⟨entered, best, isBest, hopeless⟩ | entered
  · left
    exact ⟨state, entered, .refl sound explored, fun more choice =>
      explored _ visited le_rfl chosen more reached below choice⟩
  · left
    have covered : search.Covered lower reserved matched state.best level usedPeople
        (prefixScore lower (chosen.map decision)) := by
      rw [isBest]
      exact covered_of_optimistic_lt problem hopeless
    refine ⟨_, entered, ⟨sound.record _ _, ?_, ?_, fun _ atMost => atMost⟩, fun more choice =>
      covered chosen more reached le_rfl choice⟩
    · intro entry member below
      rcases List.mem_cons.mp member with rfl | old
      · exact covered
      · exact explored entry old below
    · intro entry member above
      rcases List.mem_cons.mp member with rfl | old
      · exact absurd above (lt_irrefl _)
      · exact old
  · exact Or.inr entered

/-- **The search is exhaustive up to dominance.** -/
theorem visit_spec (rest : List CenterRequirement) : ∀ done : List CenterRequirement,
    search.coupled = done ++ rest →
      VisitSpec lower search reserved matched done.length rest := by
  induction rest with
  | nil =>
      intro done split usedPeople chosen state reached sound explored
      have atEnd : search.coupled.drop done.length = [] := by simp [split]
      rcases enter_spec problem reached sound explored with ⟨after, entered, progress, best⟩ | entered
      · rw [atEnd] at best
        exact ⟨after, by rw [visit, entered], progress, best⟩
      · have whole : done.length = search.coupled.length := by simp [split]
        obtain ⟨after, finished, afterSound, seen, improved, best⟩ :=
          finish_spec problem (whole ▸ reached)
            (sound.record (done.length, usedPeople) (prefixScore lower (chosen.map decision)))
        have beyond : ∀ more, CrewChoice CenterRequirement.crewOptions [] usedPeople more → AtMost lower after.best
            (search.leafScore lower matched (chosen ++ more) (usedPeople ∪ peopleOf more)) := by
          intro more choice
          cases choice
          simpa using best
        refine ⟨after, by rw [visit, entered]; exact finished,
          ⟨afterSound, ?_, ?_, improved⟩, beyond⟩
        · unfold Explored
          rw [seen]
          exact Explored.record problem explored reached improved (by rwa [atEnd])
        · intro entry member above
          rw [seen] at member
          rcases List.mem_cons.mp member with rfl | old
          · exact absurd above (lt_irrefl _)
          · exact old
  | cons requirement rest ih =>
      intro done split usedPeople chosen state reached sound explored
      have atHead : search.coupled.drop done.length = requirement :: rest := by simp [split]
      rcases enter_spec problem reached sound explored with ⟨after, entered, progress, best⟩ | entered
      · rw [atHead] at best
        exact ⟨after, by rw [visit, entered], progress, best⟩
      · have later : VisitSpec lower search reserved matched (done.length + 1) rest := by
          have spec := ih (done ++ [requirement]) (by simp [split])
          rwa [List.length_append, List.length_singleton] at spec
        have recordedExplored : search.Explored lower reserved matched (done.length + 1)
            (state.record (done.length, usedPeople) (prefixScore lower (chosen.map decision))) := by
          intro entry member below
          rcases List.mem_cons.mp member with rfl | old
          · exact absurd below (Nat.not_succ_le_self _)
          · exact explored entry old (Nat.le_of_succ_le below)
        obtain ⟨middle, folded, progress, crews⟩ := foldlM_visit_spec split later reached
          (orderedOptions lower requirement.crewOptions)
          (fun option member => (mem_sortBy _).mp member) _ (sound.record _ _) recordedExplored
        obtain ⟨after, visited, further, skipped⟩ :=
          later usedPeople chosen middle (reached.skip split) progress.sound progress.explored
        have whole := progress.trans further
        have beyond : ∀ more, CrewChoice CenterRequirement.crewOptions (requirement :: rest) usedPeople more →
            AtMost lower after.best
              (search.leafScore lower matched (chosen ++ more) (usedPeople ∪ peopleOf more)) := by
          intro more choice
          cases choice with
          | skip choice => exact skipped more choice
          | take offered apart choice =>
              exact further.improved _ (crews _ ((mem_sortBy _).mpr offered) apart _ choice)
        refine ⟨after, ?_, ⟨whole.sound, ?_, ?_, whole.improved⟩, beyond⟩
        · rw [visit, entered]
          simp only [folded]
          exact visited
        · intro entry member below
          rcases Nat.lt_or_ge entry.1.1 (done.length + 1) with above | deeper
          · exact Explored.record problem explored reached whole.improved (by rwa [atHead]) entry
              (whole.kept entry member above) below
          · exact whole.explored entry member deeper
        · intro entry member above
          rcases List.mem_cons.mp (whole.kept entry member (Nat.lt_succ_of_lt above)) with rfl | old
          · exact absurd above (lt_irrefl _)
          · exact old

end Visit

end CoverageSearch

end PlantManager.Solver

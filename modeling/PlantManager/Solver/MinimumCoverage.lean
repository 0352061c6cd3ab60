import PlantManager.Solver.SingleMatching

/-! # Minimum coverage

`Solver.solveMinimumCoverage` chooses crews for the centers that need
several people by a search that prunes states reached more cheaply before and
states that cannot staff more centers than the best result so far. The remaining
people are matched to the centers that need one.
-/

namespace PlantManager.Solver

open Ranking

variable (lower : String → String)

/-- Why a center stays unstaffed. -/
def issue (requirement : CenterRequirement) (decisions : List AssignmentDecision) :
    CoverageIssue :=
  let training := requirement.levelZeroPeople ≠ [] ∧ requirement.candidates = [] ∧
    requirement.crewOptions = []
  let code := if training then "training_required" else requirement.unresolvedCode
  let message :=
    if training then
      s!"{requirement.center} could not be staffed. Training is required for {requirement.group}."
    else if requirement.unresolvedMessage ≠ "" then requirement.unresolvedMessage
    else s!"{requirement.center} could not be staffed to its minimum."
  let assignedCenter (person : String) : Option String :=
    (decisions.reverse.find? fun item => item.person = person).map AssignmentDecision.center
  let candidatePeople := (requirement.candidates.map CandidateEdge.person ++
    requirement.crewOptions.flatMap CrewOption.people).dedup
  let known := requirement.rejections.map fun item => (item.person, item.code)
  let rejection (person : String) : CandidateRejection :=
    match (assignedCenter person).filter fun other => other ≠ "" ∧ other ≠ requirement.center with
    | some otherCenter =>
        { person := person
          code := "needed_elsewhere"
          detail := s!"Used at {otherCenter} by the maximum-coverage solution." }
    | none =>
        { person := person
          code := "global_tie_break"
          detail := "Available, but assigning them here would not improve total coverage." }
  { center := requirement.center
    group := requirement.group
    code := code
    message := message
    rejections := requirement.rejections ++
      ((sortBy lower candidatePeople).map rejection).filter fun item =>
        (item.person, item.code) ∉ known }

/-- Whether a center is staffed by the decisions. -/
def Staffed (decisions : List AssignmentDecision) (requirement : CenterRequirement) : Prop :=
  requirement.remainingSlots = 0 ∨ requirement.center ∈ decisions.map AssignmentDecision.center

instance (decisions : List AssignmentDecision) (requirement : CenterRequirement) :
    Decidable (Staffed decisions requirement) := inferInstanceAs (Decidable (_ ∨ _))

def assembleResult (requirements : List CenterRequirement) (decisions : List AssignmentDecision) :
    CoverageResult :=
  let staffed := ((requirements.filter fun requirement => Staffed decisions requirement).map
    CenterRequirement.center).dedup
  let unresolved := sortBy (fun item => lower item.center)
    (requirements.filter fun item => item.center ∉ staffed)
  { decisions := sortDecisions lower decisions
    staffedCenters := sortBy lower staffed
    unresolvedCenters := unresolved.map CenterRequirement.center
    issues := unresolved.map fun item => issue lower item decisions }

/-- Whether a result staffs more centers, or as many with fewer overrides, then at
less cost, then with earlier decisions. -/
def resultIsBetter (candidate : CoverageResult) : Option CoverageResult → Bool
  | none => true
  | some current =>
      if candidate.staffedCenters.length ≠ current.staffedCenters.length then
        current.staffedCenters.length < candidate.staffedCenters.length
      else if overrideCount candidate.decisions ≠ overrideCount current.decisions then
        overrideCount candidate.decisions < overrideCount current.decisions
      else if totalRankCost candidate.decisions ≠ totalRankCost current.decisions then
        totalRankCost candidate.decisions < totalRankCost current.decisions
      else
        candidate.decisions.map (decisionKey lower) < current.decisions.map (decisionKey lower)

/-- What is compared: fewer is better, in this order. -/
abbrev Score := ℤ ×ₗ ℕ ×ₗ ℤ ×ₗ List (String ×ₗ String)

def prefixScore (decisions : List AssignmentDecision) : Score :=
  toLex (-((decisions.map AssignmentDecision.center).dedup.length : ℤ),
    toLex (overrideCount decisions, toLex (totalRankCost decisions,
      sortKeys (decisions.map (decisionKey lower)))))

/-- The best result, the matchings computed and the states visited so far. -/
structure SearchState where
  best : Option CoverageResult := none
  singleMatchCache : List (Finset String × List AssignmentDecision) := []
  seenPrefix : List ((ℕ × Finset String) × Score) := []

/-- Whether the state was visited before with a score at least as good. -/
def SearchState.dominated (state : SearchState) (key : ℕ × Finset String) (score : Score) : Bool :=
  match state.seenPrefix.lookup key with
  | some previous => previous ≤ score
  | none => false

def SearchState.record (state : SearchState) (key : ℕ × Finset String) (score : Score) :
    SearchState :=
  { state with seenPrefix := (key, score) :: state.seenPrefix }

/-- What the search reads and never changes. -/
structure CoverageSearch where
  normalized : List CenterRequirement
  singles : List CenterRequirement
  coupled : List CenterRequirement
  matchSingles : Finset String → Except Failure (List AssignmentDecision)

namespace CoverageSearch

variable (search : CoverageSearch)

def singleCandidatePeople : Finset String :=
  (search.singles.flatMap fun requirement =>
    requirement.candidates.map CandidateEdge.person).toFinset

/-- The centers that the decisions and the centers still open can staff. -/
def optimistic (index : ℕ) (decisions : List AssignmentDecision) : ℕ :=
  search.normalized.countP (fun item => item.remainingSlots = 0) +
    (decisions.map AssignmentDecision.center).dedup.length +
    (search.coupled.length - index) + search.singles.length

/-- Record a visit; the flag tells whether the state has to be explored. -/
def enter (index : ℕ) (usedPeople : Finset String) (decisions : List AssignmentDecision)
    (state : SearchState) : SearchState × Bool :=
  let score := prefixScore lower decisions
  if state.dominated (index, usedPeople) score then (state, false)
  else
    let visited := state.record (index, usedPeople) score
    match state.best with
    | some best => (visited, !decide (search.optimistic index decisions < best.staffedCenters.length))
    | none => (visited, true)

/-- The matching for these unavailable people, from the cache when it is there. -/
def cachedMatch (unavailableSingles : Finset String)
    (cache : List (Finset String × List AssignmentDecision)) :
    Except Failure (List AssignmentDecision × List (Finset String × List AssignmentDecision)) :=
  match cache.lookup unavailableSingles with
  | some matched => .ok (matched, cache)
  | none => do
      let matched ← search.matchSingles unavailableSingles
      pure (matched, (unavailableSingles, matched) :: cache)

/-- Match the people left to the centers that need one and keep the better result. -/
def finish (usedPeople : Finset String) (decisions : List AssignmentDecision)
    (state : SearchState) : Except Failure SearchState := do
  let unavailableSingles := usedPeople ∩ search.singleCandidatePeople
  let (matched, cache) ← search.cachedMatch unavailableSingles state.singleMatchCache
  let candidate := assembleResult lower search.normalized (decisions ++ matched)
  pure { state with
    singleMatchCache := cache
    best := if resultIsBetter lower candidate state.best then some candidate else state.best }

/-- The options of a center in the order in which they are tried. -/
def orderedOptions (options : List CrewOption) : List CrewOption :=
  sortBy (fun option : CrewOption => toLex
    (option.members.countP fun member => member.preference = .never,
      toLex ((option.members.map CandidateEdge.rankCost).sum, option.people.map lower))) options

/-- Try every crew of every center still open, or none. -/
def visit : List CenterRequirement → ℕ → Finset String → List AssignmentDecision → SearchState →
    Except Failure SearchState
  | [], index, usedPeople, decisions, state =>
      match search.enter lower index usedPeople decisions state with
      | (entered, false) => .ok entered
      | (entered, true) => search.finish lower usedPeople decisions entered
  | requirement :: rest, index, usedPeople, decisions, state =>
      match search.enter lower index usedPeople decisions state with
      | (entered, false) => .ok entered
      | (entered, true) => do
          let explored ← (orderedOptions lower requirement.crewOptions).foldlM (fun current option =>
            if (option.people.toFinset ∩ usedPeople).Nonempty then .ok current
            else visit rest (index + 1) (usedPeople ∪ option.people.toFinset)
              (decisions ++ crewDecisions option) current) entered
          visit rest (index + 1) usedPeople decisions explored

section Mono

variable {lower} {matching : Finset String → Except Failure (List AssignmentDecision)}
  (agrees : ∀ unavailable ⊆ search.singleCandidatePeople, ∀ decisions,
    search.matchSingles unavailable = .ok decisions → matching unavailable = .ok decisions)

include agrees

theorem cachedMatch_mono {unavailable : Finset String}
    (inside : unavailable ⊆ search.singleCandidatePeople)
    {cache : List (Finset String × List AssignmentDecision)}
    {result : List AssignmentDecision × List (Finset String × List AssignmentDecision)}
    (found : search.cachedMatch unavailable cache = .ok result) :
    cachedMatch { search with matchSingles := matching } unavailable cache = .ok result := by
  unfold cachedMatch at found ⊢
  cases stored : cache.lookup unavailable with
  | some decisions => rwa [stored] at found
  | none =>
      rw [stored] at found
      cases matched : search.matchSingles unavailable with
      | error failure => rw [matched] at found; cases found
      | ok decisions =>
          rw [matched] at found
          change (matching unavailable).bind _ = _
          rw [agrees unavailable inside decisions matched]
          exact found

variable {decisions : List AssignmentDecision} {usedPeople : Finset String}

theorem finish_mono {state after : SearchState}
    (finished : search.finish lower usedPeople decisions state = .ok after) :
    finish lower { search with matchSingles := matching } usedPeople decisions state = .ok after := by
  simp only [finish] at finished ⊢
  cases found : search.cachedMatch (usedPeople ∩ search.singleCandidatePeople)
      state.singleMatchCache with
  | error failure => rw [found] at finished; cases finished
  | ok result =>
      rw [found] at finished
      rw [← finished]
      have same := cachedMatch_mono search agrees Finset.inter_subset_right found
      change (cachedMatch { search with matchSingles := matching }
        (usedPeople ∩ search.singleCandidatePeople) state.singleMatchCache).bind _ = _
      rw [same]
      rfl

/-- A visit that returns does so with any matchings that agree. -/
theorem visit_mono {rest : List CenterRequirement} {index : ℕ} {state after : SearchState}
    (visited : search.visit lower rest index usedPeople decisions state = .ok after) :
    visit lower { search with matchSingles := matching } rest index usedPeople decisions state =
      .ok after := by
  induction rest generalizing index usedPeople decisions state after with
  | nil =>
      rw [visit] at visited ⊢
      change (match search.enter lower index usedPeople decisions state with
        | (entered, false) => _
        | (entered, true) => _) = _
      cases entered : search.enter lower index usedPeople decisions state with
      | mk next explore =>
          rw [entered] at visited
          cases explore with
          | false => exact visited
          | true => exact finish_mono search agrees visited
  | cons requirement rest ih =>
      rw [visit] at visited ⊢
      change (match search.enter lower index usedPeople decisions state with
        | (entered, false) => _
        | (entered, true) => _) = _
      cases entered : search.enter lower index usedPeople decisions state with
      | mk next explore =>
          rw [entered] at visited
          cases explore with
          | false => exact visited
          | true =>
              have folds : ∀ (options : List CrewOption) (before middle : SearchState),
                  options.foldlM (fun current option =>
                    if (option.people.toFinset ∩ usedPeople).Nonempty then .ok current
                    else search.visit lower rest (index + 1) (usedPeople ∪ option.people.toFinset)
                      (decisions ++ crewDecisions option) current) before = .ok middle →
                  options.foldlM (fun current option =>
                    if (option.people.toFinset ∩ usedPeople).Nonempty then .ok current
                    else visit lower { search with matchSingles := matching } rest (index + 1)
                      (usedPeople ∪ option.people.toFinset)
                      (decisions ++ crewDecisions option) current) before = .ok middle := by
                intro options
                induction options with
                | nil => exact fun _ _ same => same
                | cons option options folded =>
                    intro before middle ran
                    rw [List.foldlM_cons] at ran ⊢
                    by_cases overlap : (option.people.toFinset ∩ usedPeople).Nonempty
                    · rw [if_pos overlap] at ran ⊢
                      exact folded before middle ran
                    · rw [if_neg overlap] at ran ⊢
                      cases inner : search.visit lower rest (index + 1)
                          (usedPeople ∪ option.people.toFinset)
                          (decisions ++ crewDecisions option) before with
                      | error failure => rw [inner] at ran; cases ran
                      | ok through =>
                          rw [inner] at ran
                          rw [ih inner]
                          exact folded through middle ran
              dsimp only at visited ⊢
              cases folded : (orderedOptions lower requirement.crewOptions).foldlM (fun current option =>
                  if (option.people.toFinset ∩ usedPeople).Nonempty then .ok current
                  else search.visit lower rest (index + 1) (usedPeople ∪ option.people.toFinset)
                    (decisions ++ crewDecisions option) current) next with
              | error failure => rw [folded] at visited; cases visited
              | ok middle =>
                  rw [folded] at visited
                  rw [folds _ _ _ folded]
                  exact ih visited

end Mono

end CoverageSearch

def normalizedRequirements (requirements : List CenterRequirement) : List CenterRequirement :=
  sortBy (fun item => lower item.center) requirements

def singleRequirements (requirements : List CenterRequirement) : List CenterRequirement :=
  (normalizedRequirements lower requirements).filter fun item => item.remainingSlots = 1

def coupledRequirements (requirements : List CenterRequirement) : List CenterRequirement :=
  sortBy (fun item => toLex (item.crewOptions.length, lower item.center))
    ((normalizedRequirements lower requirements).filter fun item => 1 < item.remainingSlots)

/-- Crews are complete, without repetition, and for their own center. -/
def CrewsValid (coupled : List CenterRequirement) : Prop :=
  ∀ requirement ∈ coupled, ∀ option ∈ requirement.crewOptions,
    (option.members.length : ℤ) = requirement.remainingSlots ∧
      option.center = requirement.center ∧ option.people.Nodup ∧
      ∀ member ∈ option.members, member.center = requirement.center

instance (coupled : List CenterRequirement) : Decidable (CrewsValid coupled) :=
  inferInstanceAs (Decidable (∀ _ ∈ _, _))

/-- Every candidate and every crew member has a level from one to three. -/
def LevelsValid (normalized coupled : List CenterRequirement) : Prop :=
  ∀ edge ∈ (normalized.flatMap CenterRequirement.candidates) ++
    coupled.flatMap (fun requirement => requirement.crewOptions.flatMap CrewOption.members),
    edge.level ∈ [(1 : ℤ), 2, 3]

instance (normalized coupled : List CenterRequirement) : Decidable (LevelsValid normalized coupled) :=
  inferInstanceAs (Decidable (∀ _ ∈ _, _))

/-- The search for a list of requirements. -/
def coverageSearch (fuel : ℕ) (requirements : List CenterRequirement) : CoverageSearch where
  normalized := normalizedRequirements lower requirements
  singles := singleRequirements lower requirements
  coupled := coupledRequirements lower requirements
  matchSingles := matchSingleRequirements lower fuel (singleRequirements lower requirements)

/-- The people who hold a place already. -/
def reservedPeople (requirements : List CenterRequirement) : Finset String :=
  (requirements.flatMap CenterRequirement.protectedPeople).toFinset

def solveMinimumCoverage (fuel : ℕ) (requirements : List CenterRequirement) :
    Except Failure CoverageResult := do
  let search := coverageSearch lower fuel requirements
  if ¬ CrewsValid search.coupled then
    throw (.valueError "crew options must be complete, unique, and center-scoped")
  if ¬ LevelsValid search.normalized search.coupled then
    throw (.valueError "candidate and crew member levels must be 1, 2, or 3")
  let final ← search.visit lower search.coupled 0 (reservedPeople search.normalized) [] {}
  match final.best with
  | some best => pure best
  | none => pure (assembleResult lower search.normalized [])

/-- More fuel does not change the result. -/
theorem solveMinimumCoverage_mono {lower : String → String} {fuel more : ℕ} (enough : fuel ≤ more)
    {requirements : List CenterRequirement} {result : CoverageResult}
    (solved : solveMinimumCoverage lower fuel requirements = .ok result) :
    solveMinimumCoverage lower more requirements = .ok result := by
  by_cases crews : CrewsValid (coverageSearch lower fuel requirements).coupled
  · by_cases levels : LevelsValid (coverageSearch lower fuel requirements).normalized
      (coverageSearch lower fuel requirements).coupled
    · have moreCrews : CrewsValid (coverageSearch lower more requirements).coupled := crews
      have moreLevels : LevelsValid (coverageSearch lower more requirements).normalized
        (coverageSearch lower more requirements).coupled := levels
      simp only [solveMinimumCoverage, crews, moreCrews, levels, moreLevels, not_true_eq_false,
        ↓reduceIte] at solved ⊢
      cases run : (coverageSearch lower fuel requirements).visit lower
          (coverageSearch lower fuel requirements).coupled 0
          (reservedPeople (coverageSearch lower fuel requirements).normalized) [] {} with
      | error failure => rw [run] at solved; cases solved
      | ok after =>
          have same : (coverageSearch lower more requirements).visit lower
              (coverageSearch lower more requirements).coupled 0
              (reservedPeople (coverageSearch lower more requirements).normalized) [] {} =
                .ok after :=
            CoverageSearch.visit_mono (coverageSearch lower fuel requirements)
              (fun _ _ _ matched => matchSingleRequirements_mono enough matched) run
          rw [run] at solved
          rw [same]
          exact solved
    · simp only [solveMinimumCoverage, crews, levels, not_true_eq_false, not_false_eq_true,
        ↓reduceIte] at solved
      cases solved
  · simp only [solveMinimumCoverage, crews, not_false_eq_true, ↓reduceIte] at solved
    cases solved

end PlantManager.Solver

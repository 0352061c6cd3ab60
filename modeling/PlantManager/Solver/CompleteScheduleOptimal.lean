import PlantManager.Solver.CompleteFlowOptimal
import PlantManager.Solver.CompleteSchedule

/-! # Complete schedules are sound, complete and optimal

`Solver.solveCompleteSchedule_optimal`: on a problem that passes the
checks, the result is complete exactly when everybody can be placed, its decisions
place everybody with the fewest overrides and then the least rank cost, and a result
that is not complete has no decisions.
-/

namespace PlantManager.Solver

open Checks Ranking

/-- Everybody placed once: at centers without crews along candidate edges, at the
others by a crew or not at all, and within the bounds of every center. -/
structure CompleteAssignment (people : List String) (centers : List CompleteCenter)
    (candidates chosen : List CandidateEdge) : Prop where
  placed : (chosen.map CandidateEdge.person).Perm people
  center : ∀ edge ∈ chosen, edge.center ∈ centers.map CompleteCenter.center
  ordinary : ∀ center ∈ centers, center.crewOptions = [] →
    chosenFor chosen center.center ⊆ candidates
  crew : ∀ center ∈ centers, center.crewOptions ≠ [] → chosenFor chosen center.center = [] ∨
    ∃ option ∈ center.crewOptions, (chosenFor chosen center.center).Perm option.members
  minimum : ∀ center ∈ centers,
    center.minimum ≤ center.protectedPeople.length + loadAt chosen center.center
  capacity : ∀ center ∈ centers,
    (center.protectedPeople.length : ℤ) + loadAt chosen center.center ≤ center.capacity

/-- What the checks establish and the search relies on. -/
structure CompleteProblem (people : List String) (centers : List CompleteCenter)
    (candidates : List CandidateEdge) : Prop where
  peopleDistinct : people.Nodup
  centersDistinct : (centers.map CompleteCenter.center).Nodup
  bounds : ∀ center ∈ centers, center.minimum ≤ center.capacity
  protectedFit : ∀ center ∈ centers, (center.protectedPeople.length : ℤ) ≤ center.capacity
  crewDistinct : ∀ center ∈ centers, ∀ option ∈ center.crewOptions, option.people.Nodup
  crewSize : ∀ center ∈ centers, ∀ option ∈ center.crewOptions,
    (option.members.length : ℤ) ≤ center.remainingCapacity
  crewOwn : ∀ center ∈ centers, ∀ option ∈ center.crewOptions, ∀ member ∈ option.members,
    member.center = center.center
  crewRequested : ∀ center ∈ centers, ∀ option ∈ center.crewOptions, ∀ member ∈ option.members,
    member.person ∈ people

section Validation

variable {requested people : List String} {centers : List CompleteCenter}
  {candidates : List CandidateEdge}

theorem of_validateCrewOption {center : CompleteCenter} {option : CrewOption}
    (valid : validateCrewOption requested center option = .ok ()) :
    option.people.Nodup ∧ (option.members.length : ℤ) ≤ center.remainingCapacity ∧
      ∀ member ∈ option.members, member.center = center.center ∧ member.person ∈ requested := by
  simp only [validateCrewOption, raiseIf_bind_eq_ok, forM_eq_ok, raiseIf_eq_ok, not_not] at valid
  obtain ⟨-, distinct, size, -, members⟩ := valid
  exact ⟨distinct, size.2, fun member inside => ⟨(members member inside).1,
    (members member inside).2.1⟩⟩

theorem of_validateCompleteCenter {seen after : Finset String} {center : CompleteCenter}
    (valid : validateCompleteCenter requested seen center = .ok after) :
    center.minimum ≤ center.capacity ∧
      (center.protectedPeople.length : ℤ) ≤ center.capacity ∧
      ∀ option ∈ center.crewOptions, validateCrewOption requested center option = .ok () := by
  simp only [validateCompleteCenter, raiseIf_bind_eq_ok, not_lt] at valid
  obtain ⟨-, bounds, -, -, fits, rest⟩ := valid
  obtain ⟨_, options, _⟩ := bind_eq_ok.mp rest
  rw [forM_eq_ok] at options
  exact ⟨bounds, fits, options⟩

theorem completeProblem_of_validate
    (valid : validateCompleteProblem people centers candidates = .ok ()) :
    CompleteProblem people centers candidates := by
  simp only [validateCompleteProblem, raiseIf_bind_eq_ok, not_not] at valid
  obtain ⟨peopleDistinct, centersDistinct, rest⟩ := valid
  obtain ⟨_, folded, _⟩ := bind_eq_ok.mp rest
  have checked : ∀ center ∈ centers, center.minimum ≤ center.capacity ∧
      (center.protectedPeople.length : ℤ) ≤ center.capacity ∧
      ∀ option ∈ center.crewOptions, validateCrewOption people center option = .ok () := by
    cases ran : centers.foldlM (validateCompleteCenter people) ∅ with
    | error failure => rw [ran] at folded; cases folded
    | ok last => exact forall_of_foldlM_eq_ok (fun valid => of_validateCompleteCenter valid) ran
  have crews := fun center listed option offered =>
    of_validateCrewOption ((checked center listed).2.2 option offered)
  exact {
    peopleDistinct := peopleDistinct
    centersDistinct := centersDistinct
    bounds := fun center listed => (checked center listed).1
    protectedFit := fun center listed => (checked center listed).2.1
    crewDistinct := fun center listed option offered => (crews center listed option offered).1
    crewSize := fun center listed option offered => (crews center listed option offered).2.1
    crewOwn := fun center listed option offered member inside =>
      ((crews center listed option offered).2.2 member inside).1
    crewRequested := fun center listed option offered member inside =>
      ((crews center listed option offered).2.2 member inside).2 }

end Validation

section Keep

variable {lower : String → String} {attempts : List CompleteAttempt} {state : CompleteState}

/-- A complete attempt with a key no greater is kept. -/
def KeptBelow (lower : String → String) (state : CompleteState) (attempt : CompleteAttempt) : Prop :=
  ∃ best, state.bestComplete = some best ∧
    completeAttemptKey lower best ≤ completeAttemptKey lower attempt

theorem keptBelow_keep {attempt : CompleteAttempt} (complete : attempt.complete = true) :
    KeptBelow lower (state.keep lower attempt) attempt := by
  unfold KeptBelow CompleteState.keep
  cases before : state.bestComplete with
  | none => exact ⟨attempt, by simp [complete, improves], le_rfl⟩
  | some best =>
      by_cases better : completeAttemptKey lower attempt < completeAttemptKey lower best
      · exact ⟨attempt, by simp [complete, improves, better], le_rfl⟩
      · exact ⟨best, by simp [improves, better], not_lt.mp better⟩

theorem KeptBelow.keep {attempt : CompleteAttempt} (kept : KeptBelow lower state attempt)
    (next : CompleteAttempt) : KeptBelow lower (state.keep lower next) attempt := by
  obtain ⟨best, before, below⟩ := kept
  unfold KeptBelow CompleteState.keep
  rw [before]
  by_cases better : next.complete = true ∧
      completeAttemptKey lower next < completeAttemptKey lower best
  · exact ⟨next, by simp [improves, better], better.2.le.trans below⟩
  · refine ⟨best, if_neg fun taken => better ?_, below⟩
    simpa [improves] using taken

/-- Keeping the better of all attempts ends with the best complete one. -/
theorem foldl_keep_spec :
    (∀ best, (attempts.foldl (CompleteState.keep lower) state).bestComplete = some best →
        state.bestComplete = some best ∨ best ∈ attempts ∧ best.complete = true) ∧
      (∀ attempt, KeptBelow lower state attempt ∨ attempt ∈ attempts ∧ attempt.complete = true →
        KeptBelow lower (attempts.foldl (CompleteState.keep lower) state) attempt) := by
  induction attempts generalizing state with
  | nil => exact ⟨fun _ same => Or.inl same, fun _ kept => by simpa using kept⟩
  | cons next rest ih =>
      obtain ⟨found, covered⟩ := @ih (state.keep lower next)
      refine ⟨fun best same => ?_, fun attempt known => covered attempt ?_⟩
      · rcases found best same with before | ⟨later, complete⟩
        · rw [CompleteState.keep] at before
          split at before
          · rename_i taken
            obtain rfl := Option.some.inj before
            exact Or.inr ⟨List.mem_cons_self, (Bool.and_eq_true_iff.mp taken).1⟩
          · exact Or.inl before
        · exact Or.inr ⟨List.mem_cons_of_mem _ later, complete⟩
      · rcases known with kept | ⟨member, complete⟩
        · exact Or.inl (kept.keep next)
        · rcases List.mem_cons.mp member with rfl | later
          · exact Or.inl (keptBelow_keep complete)
          · exact Or.inr ⟨later, complete⟩

end Keep

namespace CompleteSearch

/-- The choices of crews in the order in which they are tried. -/
def crewLeaves (lower : String → String) : List CompleteCenter → Finset String →
    List (List CandidateEdge)
  | [], _ => [[]]
  | center :: rest, usedPeople =>
      (CoverageSearch.orderedOptions lower center.crewOptions).flatMap (fun option =>
        if (option.people.toFinset ∩ usedPeople).Nonempty then []
        else (crewLeaves lower rest (usedPeople ∪ option.people.toFinset)).map (option.members ++ ·)) ++
      crewLeaves lower rest usedPeople

theorem mem_crewLeaves {lower : String → String} {centers : List CompleteCenter}
    {usedPeople : Finset String} {chosen : List CandidateEdge} :
    chosen ∈ crewLeaves lower centers usedPeople ↔
      CrewChoice CompleteCenter.crewOptions centers usedPeople chosen := by
  induction centers generalizing usedPeople chosen with
  | nil =>
      rw [crewLeaves, List.mem_singleton]
      exact ⟨fun same => same ▸ .done usedPeople, fun choice => by cases choice; rfl⟩
  | cons center rest ih =>
      rw [crewLeaves, List.mem_append, List.mem_flatMap]
      constructor
      · rintro (⟨option, offered, member⟩ | later)
        · by_cases overlap : (option.people.toFinset ∩ usedPeople).Nonempty
          · rw [if_pos overlap] at member
            simp at member
          · rw [if_neg overlap] at member
            obtain ⟨more, later, rfl⟩ := List.mem_map.mp member
            rw [Finset.not_nonempty_iff_eq_empty, ← Finset.disjoint_iff_inter_eq_empty] at overlap
            exact .take ((mem_sortBy _).mp offered) overlap (ih.mp later)
        · exact .skip (ih.mp later)
      · intro choice
        cases choice with
        | skip later => exact Or.inr (ih.mpr later)
        | @take _ _ _ option more offered apart later =>
            refine Or.inl ⟨option, (mem_sortBy _).mpr offered, ?_⟩
            rw [Finset.disjoint_iff_inter_eq_empty, ← Finset.not_nonempty_iff_eq_empty] at apart
            rw [if_neg apart]
            exact List.mem_map_of_mem (ih.mpr later)

variable {lower : String → String} {search : CompleteSearch}
  {attemptOf : List String → CompleteAttempt}

/-- The attempt reached with these crews. -/
def leaf (lower : String → String) (search : CompleteSearch)
    (attemptOf : List String → CompleteAttempt) (chosen : List CandidateEdge) : CompleteAttempt :=
  search.combine lower (chosen.map decision) (loadAt chosen)
    (attemptOf (search.remainingPeople (chosen.map CandidateEdge.person)))

theorem loadAt_append (first second : List CandidateEdge) (name : String) :
    loadAt (first ++ second) name = loadAt first name + loadAt second name :=
  List.countP_append

/-- The count stored for a center with a crew. -/
theorem update_loadAt {chosen : List CandidateEdge} {center : CompleteCenter} {option : CrewOption}
    (absent : ∀ edge ∈ chosen, edge.center ≠ center.center)
    (own : ∀ member ∈ option.members, member.center = center.center) :
    Function.update (loadAt chosen) center.center option.members.length =
      loadAt (chosen ++ option.members) := by
  funext name
  rw [loadAt_append]
  by_cases here : name = center.center
  · subst here
    have none : loadAt chosen center.center = 0 :=
      List.countP_eq_zero.mpr fun edge member same => absent edge member (of_decide_eq_true same)
    have all : loadAt option.members center.center = option.members.length :=
      List.countP_eq_length.mpr fun member inside => decide_eq_true (own member inside)
    rw [Function.update_self, none, all, Nat.zero_add]
  · have none : loadAt option.members name = 0 :=
      List.countP_eq_zero.mpr fun member inside same =>
        here ((of_decide_eq_true same).symm.trans (own member inside))
    rw [Function.update_of_ne here, none, Nat.add_zero]

/-- The search tries all choices of crews one after the other. -/
theorem visit_eq (flows : ∀ names, names.Sublist search.orderedPeople →
      search.flow names = .ok (attemptOf names))
    {centers : List CompleteCenter} (distinct : (centers.map CompleteCenter.center).Nodup)
    (own : ∀ center ∈ centers, ∀ option ∈ center.crewOptions, ∀ member ∈ option.members,
      member.center = center.center)
    {usedPeople : Finset String} {chosen : List CandidateEdge} {state : CompleteState}
    (absent : ∀ edge ∈ chosen, edge.center ∉ centers.map CompleteCenter.center) :
    search.visit lower centers usedPeople (chosen.map decision) (loadAt chosen) state =
      .ok (((crewLeaves lower centers usedPeople).map fun more =>
        search.leaf lower attemptOf (chosen ++ more)).foldl (CompleteState.keep lower) state) := by
  induction centers generalizing usedPeople chosen state with
  | nil =>
      have people : ((chosen.map decision).map AssignmentDecision.person) =
          chosen.map CandidateEdge.person := by
        rw [List.map_map]
        rfl
      simp only [visit, consider, people]
      rw [flows (search.remainingPeople _) List.filter_sublist]
      simp only [crewLeaves, List.map_cons, List.append_nil]
      rfl
  | cons center rest ih =>
      obtain ⟨notLater, restDistinct⟩ := List.nodup_cons.mp distinct
      have restOwn := fun other member => own other (List.mem_cons_of_mem _ member)
      have restAbsent : ∀ edge ∈ chosen, edge.center ∉ rest.map CompleteCenter.center :=
        fun edge member there => absent edge member (List.mem_cons_of_mem _ there)
      have folds : ∀ (options : List CrewOption), options ⊆ center.crewOptions →
          ∀ before : CompleteState,
          options.foldlM (fun current option =>
            if (option.people.toFinset ∩ usedPeople).Nonempty then .ok current
            else search.visit lower rest (usedPeople ∪ option.people.toFinset)
              (chosen.map decision ++ crewDecisions option)
              (Function.update (loadAt chosen) center.center option.members.length) current)
            before = .ok (((options.flatMap fun option =>
              if (option.people.toFinset ∩ usedPeople).Nonempty then []
              else (crewLeaves lower rest (usedPeople ∪ option.people.toFinset)).map
                (option.members ++ ·)).map fun more =>
              search.leaf lower attemptOf (chosen ++ more)).foldl (CompleteState.keep lower)
                before) := by
        intro options inside
        induction options with
        | nil => exact fun _ => rfl
        | cons option others folded =>
            intro before
            obtain ⟨offered, more⟩ := List.cons_subset.mp inside
            rw [List.foldlM_cons, List.flatMap_cons, List.map_append, List.foldl_append]
            by_cases overlap : (option.people.toFinset ∩ usedPeople).Nonempty
            · rw [if_pos overlap, if_pos overlap]
              exact folded more before
            · rw [if_neg overlap, if_neg overlap]
              have members := own center List.mem_cons_self option offered
              have later : ∀ edge ∈ chosen ++ option.members,
                  edge.center ∉ rest.map CompleteCenter.center := by
                intro edge member
                rcases List.mem_append.mp member with early | inCrew
                · exact restAbsent edge early
                · exact members edge inCrew ▸ notLater
              have visited := @ih restDistinct restOwn (usedPeople ∪ option.people.toFinset)
                (chosen ++ option.members) before later
              rw [List.map_append] at visited
              rw [update_loadAt (fun edge member same => absent edge member
                (same ▸ List.mem_cons_self)) members, crewDecisions, visited, List.map_map]
              simp only [List.append_assoc, Function.comp_def]
              exact folded more _
      rw [visit, folds (CoverageSearch.orderedOptions lower center.crewOptions)
        fun option member => (mem_sortBy _).mp member]
      change search.visit lower rest usedPeople (chosen.map decision) (loadAt chosen) _ = _
      rw [ih restDistinct restOwn restAbsent, crewLeaves, List.map_append, List.foldl_append]

end CompleteSearch

section Parts

variable {lower : String → String} {people : List String} {centers : List CompleteCenter}
  {candidates : List CandidateEdge}

/-- The names of the centers with crews. -/
abbrev coupledNames (lower : String → String) (centers : List CompleteCenter) : List String :=
  (coupledCenters lower centers).map CompleteCenter.center

variable {center : CompleteCenter}

theorem mem_coupledCenters :
    center ∈ coupledCenters lower centers ↔ center ∈ centers ∧ center.crewOptions ≠ [] := by
  simp [coupledCenters]

theorem mem_ordinaryCenters :
    center ∈ ordinaryCenters lower centers ↔ center ∈ centers ∧ center.crewOptions = [] := by
  simp [ordinaryCenters]

variable (problem : CompleteProblem people centers candidates)

include problem

theorem coupledCenters_distinct : (coupledNames lower centers).Nodup :=
  ((sortBy_perm _ _).map _).nodup_iff.mpr
    ((((sortBy_perm _ _).map _).nodup_iff.mpr problem.centersDistinct).sublist
      (List.filter_sublist.map _))

theorem ordinaryCenters_distinct :
    ((ordinaryCenters lower centers).map CompleteCenter.center).Nodup :=
  (((sortBy_perm _ _).map _).nodup_iff.mpr problem.centersDistinct).sublist
    (List.filter_sublist.map _)

/-- A listed center's name is among the coupled ones when it has crews. -/
theorem center_mem_coupledNames (listed : center ∈ centers) :
    center.center ∈ coupledNames lower centers ↔ center.crewOptions ≠ [] := by
  constructor
  · intro member
    obtain ⟨other, coupled, same⟩ := List.mem_map.mp member
    obtain ⟨otherListed, crews⟩ := mem_coupledCenters.mp coupled
    obtain rfl := List.inj_on_of_nodup_map problem.centersDistinct otherListed listed same
    exact crews
  · exact fun crews => List.mem_map_of_mem (mem_coupledCenters.mpr ⟨listed, crews⟩)

theorem crewOwn_coupled : ∀ center ∈ coupledCenters lower centers,
    ∀ option ∈ center.crewOptions, ∀ member ∈ option.members, member.center = center.center :=
  fun center member => problem.crewOwn center (mem_coupledCenters.mp member).1

theorem crewDistinct_coupled : ∀ center ∈ coupledCenters lower centers,
    ∀ option ∈ center.crewOptions, option.people.Nodup :=
  fun center member => problem.crewDistinct center (mem_coupledCenters.mp member).1

/-- The places of a center are what protected people leave of its capacity. -/
theorem places_eq_capacity (listed : center ∈ centers) :
    (center.places : ℤ) = center.capacity - center.protectedPeople.length := by
  have bounds := problem.bounds center listed
  have fits := problem.protectedFit center listed
  unfold CompleteCenter.places CompleteCenter.remainingCapacity CompleteCenter.remainingMinimum
  omega

theorem flowProblem {remaining : List String} (distinct : remaining.Nodup)
    (nonneg : ∀ edge ∈ candidates, 0 ≤ edge.rankCost) :
    FlowProblem remaining (ordinaryCenters lower centers)
      (ordinaryCandidates lower centers candidates) where
  peopleDistinct := distinct
  centersDistinct := ordinaryCenters_distinct problem
  nonneg := fun edge member => nonneg edge (List.mem_of_mem_filter member)

end Parts

section Leaves

variable {lower : String → String} {people : List String} {centers : List CompleteCenter}
  {candidates crews placed : List CandidateEdge}

theorem countAssigned_eq (counts : String → ℕ) (decisions : List AssignmentDecision)
    (name : String) : countAssigned counts decisions name = counts name + assignedTo decisions name := by
  induction decisions generalizing counts with
  | nil => rfl
  | cons item rest ih =>
      have unfolded : countAssigned counts (item :: rest) =
          countAssigned (Function.update counts item.center (counts item.center + 1)) rest := rfl
      unfold assignedTo at ih ⊢
      rw [unfolded, ih, List.countP_cons]
      by_cases here : name = item.center
      · subst here
        rw [Function.update_self, if_pos (decide_eq_true rfl)]
        omega
      · rw [Function.update_of_ne here, if_neg (by simpa using Ne.symm here), Nat.add_zero]

theorem assignedTo_sortDecisions (chosen : List CandidateEdge) (name : String) :
    assignedTo (sortDecisions lower (chosen.map decision)) name = loadAt chosen name := by
  unfold assignedTo loadAt
  have perm : (sortDecisions lower (chosen.map decision)).Perm (chosen.map decision) :=
    sortBy_perm _ _
  rw [perm.countP_eq, List.countP_map]
  rfl

/-- The people that a choice of crews leaves. -/
def leftPeople (lower : String → String) (people : List String) (crews : List CandidateEdge) :
    List String :=
  (sortBy lower people).filter fun person => person ∉ crews.map CandidateEdge.person

/-- Crews and a placement of the people left. -/
structure Leaf (lower : String → String) (people : List String) (centers : List CompleteCenter)
    (candidates crews placed : List CandidateEdge) : Prop where
  crewChoice : CrewChoice CompleteCenter.crewOptions (coupledCenters lower centers) ∅ crews
  flowChoice : FlowChoice (leftPeople lower people crews) (ordinaryCenters lower centers)
    (ordinaryCandidates lower centers candidates) placed

variable (problem : CompleteProblem people centers candidates)

include problem

theorem Leaf.crewCenters (leaf : Leaf lower people centers candidates crews placed) :
    ∀ edge ∈ crews, edge.center ∈ coupledNames lower centers :=
  leaf.crewChoice.centers (crewOwn_coupled problem)

theorem Leaf.placedCenters (leaf : Leaf lower people centers candidates crews placed) :
    ∀ edge ∈ placed, edge.center ∉ coupledNames lower centers := by
  intro edge member
  obtain ⟨center, ordinary, same⟩ := List.mem_map.mp (leaf.flowChoice.center edge member)
  obtain ⟨listed, none⟩ := mem_ordinaryCenters.mp ordinary
  rw [← same, center_mem_coupledNames problem listed]
  exact not_not_intro none

theorem Leaf.distinctPeople (leaf : Leaf lower people centers candidates crews placed) :
    ((crews ++ placed).map CandidateEdge.person).Nodup ∧
      (crews ++ placed).map CandidateEdge.person ⊆ people := by
  obtain ⟨distinct, -⟩ := leaf.crewChoice.people (crewDistinct_coupled problem)
  have left : ∀ edge ∈ placed, edge.person ∈ people ∧
      edge.person ∉ crews.map CandidateEdge.person := by
    intro edge member
    obtain ⟨inside, apart⟩ := List.mem_filter.mp (leaf.flowChoice.person edge member)
    exact ⟨(mem_sortBy _).mp inside, of_decide_eq_true apart⟩
  have requested : ∀ {part : List CompleteCenter}, part ⊆ centers →
      ∀ {used : Finset String} {chosen : List CandidateEdge},
      CrewChoice CompleteCenter.crewOptions part used chosen → ∀ edge ∈ chosen,
        edge.person ∈ people := by
    intro part inside used chosen choice
    induction choice with
    | done _ => simp
    | skip _ ih => exact ih (List.cons_subset.mp inside).2
    | take offered _ _ ih =>
        obtain ⟨listed, rest⟩ := List.cons_subset.mp inside
        intro edge member
        rcases List.mem_append.mp member with inCrew | later
        · exact problem.crewRequested _ listed _ offered edge inCrew
        · exact ih rest edge later
  rw [List.map_append]
  constructor
  · refine List.Nodup.append distinct leaf.flowChoice.people fun name inCrews inPlaced => ?_
    obtain ⟨edge, member, rfl⟩ := List.mem_map.mp inPlaced
    exact (left edge member).2 inCrews
  · refine List.append_subset.mpr ⟨?_, ?_⟩
    · intro name member
      obtain ⟨edge, inCrews, rfl⟩ := List.mem_map.mp member
      exact requested (fun center coupled => (mem_coupledCenters.mp coupled).1) leaf.crewChoice edge inCrews
    · intro name member
      obtain ⟨edge, inPlaced, rfl⟩ := List.mem_map.mp member
      exact (left edge inPlaced).1

theorem Leaf.load_ordinary (leaf : Leaf lower people centers candidates crews placed)
    {center : CompleteCenter} (ordinary : center ∈ ordinaryCenters lower centers) :
    chosenFor (crews ++ placed) center.center = chosenFor placed center.center ∧
      loadAt (crews ++ placed) center.center = loadAt placed center.center := by
  obtain ⟨listed, none⟩ := mem_ordinaryCenters.mp ordinary
  have absent : ∀ edge ∈ crews, ¬ decide (edge.center = center.center) = true := by
    intro edge member same
    have coupled := leaf.crewCenters problem edge member
    rw [of_decide_eq_true same, center_mem_coupledNames problem listed] at coupled
    exact coupled none
  rw [CompleteSearch.loadAt_append, loadAt, List.countP_eq_zero.mpr absent, chosenFor,
    List.filter_append, List.filter_eq_nil_iff.mpr absent, Nat.zero_add]
  exact ⟨rfl, rfl⟩

theorem Leaf.load_coupled (leaf : Leaf lower people centers candidates crews placed)
    {center : CompleteCenter} (coupled : center ∈ coupledCenters lower centers) :
    chosenFor (crews ++ placed) center.center = chosenFor crews center.center ∧
      loadAt (crews ++ placed) center.center = (chosenFor crews center.center).length := by
  have absent : ∀ edge ∈ placed, ¬ decide (edge.center = center.center) = true := by
    intro edge member same
    refine leaf.placedCenters problem edge member ?_
    rw [of_decide_eq_true same]
    exact List.mem_map_of_mem coupled
  rw [CompleteSearch.loadAt_append, loadAt, loadAt, List.countP_eq_zero.mpr absent, chosenFor,
    List.filter_append, List.filter_eq_nil_iff.mpr absent, List.append_nil, Nat.add_zero,
    List.countP_eq_length_filter]
  exact ⟨rfl, rfl⟩

/-- A leaf that places everybody and fills every center is an assignment. -/
theorem Leaf.assignment (leaf : Leaf lower people centers candidates crews placed)
    (everybody : (crews ++ placed).length = people.length)
    (filled : ∀ center ∈ centers, center.minimum ≤
      center.protectedPeople.length + loadAt (crews ++ placed) center.center) :
    CompleteAssignment people centers candidates (crews ++ placed) := by
  obtain ⟨distinct, inside⟩ := leaf.distinctPeople problem
  have ordinaryCase : ∀ center ∈ centers, center.crewOptions = [] →
      center ∈ ordinaryCenters lower centers :=
    fun center listed none => mem_ordinaryCenters.mpr ⟨listed, none⟩
  have coupledCase : ∀ center ∈ centers, center.crewOptions ≠ [] →
      center ∈ coupledCenters lower centers :=
    fun center listed crewed => mem_coupledCenters.mpr ⟨listed, crewed⟩
  have crewed := leaf.crewChoice.chosenFor_eq (coupledCenters_distinct problem) (crewOwn_coupled problem)
  refine ⟨(distinct.subperm inside).perm_of_length_le (by rw [List.length_map, everybody]),
    fun edge member => ?_, fun center listed none => ?_, fun center listed some => ?_, filled,
    fun center listed => ?_⟩
  · rcases List.mem_append.mp member with inCrews | inPlaced
    · obtain ⟨center, coupled, same⟩ := List.mem_map.mp (leaf.crewCenters problem edge inCrews)
      exact same ▸ List.mem_map_of_mem (mem_coupledCenters.mp coupled).1
    · obtain ⟨center, ordinary, same⟩ := List.mem_map.mp (leaf.flowChoice.center edge inPlaced)
      exact same ▸ List.mem_map_of_mem (mem_ordinaryCenters.mp ordinary).1
  · rw [(leaf.load_ordinary problem (ordinaryCase center listed none)).1]
    exact fun edge member => List.mem_of_mem_filter
      (leaf.flowChoice.candidate (List.mem_of_mem_filter member))
  · rw [(leaf.load_coupled problem (coupledCase center listed some)).1]
    exact (crewed center (coupledCase center listed some)).imp_right
      fun ⟨option, offered, same⟩ => ⟨option, offered, same ▸ .rfl⟩
  · by_cases none : center.crewOptions = []
    · rw [(leaf.load_ordinary problem (ordinaryCase center listed none)).2]
      have within := leaf.flowChoice.within center (ordinaryCase center listed none)
      have places := places_eq_capacity problem listed
      omega
    · rw [(leaf.load_coupled problem (coupledCase center listed none)).2]
      have fits := problem.protectedFit center listed
      rcases crewed center (coupledCase center listed none) with nobody | ⟨option, offered, same⟩
      · rw [nobody]
        simpa using fits
      · have size := problem.crewSize center listed option offered
        unfold CompleteCenter.remainingCapacity at size
        rw [same]
        omega

omit problem in
theorem leftPeople_nodup (distinct : people.Nodup) (crews : List CandidateEdge) :
    (leftPeople lower people crews).Nodup :=
  ((sortBy_perm _ _).nodup_iff.mpr distinct).filter _

/-- An assignment consists of crews and a placement that fills the other centers. -/
theorem CompleteAssignment.exists_leaf {other : List CandidateEdge}
    (assignment : CompleteAssignment people centers candidates other) :
    ∃ crews placed, Leaf lower people centers candidates crews placed ∧
      (crews ++ placed).Perm other ∧
      placed.length = (leftPeople lower people crews).length ∧
      Filled (ordinaryCenters lower centers) placed := by
  have distinct : (other.map CandidateEdge.person).Nodup :=
    assignment.placed.nodup_iff.mpr problem.peopleDistinct
  obtain ⟨crews, choice, among⟩ := exists_crewChoice distinct (coupledCenters lower centers)
    (fun center coupled => assignment.crew center (mem_coupledCenters.mp coupled).1
      (mem_coupledCenters.mp coupled).2)
    (coupledCenters_distinct problem) ∅ (Finset.disjoint_empty_right _)
  obtain ⟨placed, isPlaced⟩ : ∃ placed, other.filter
    (fun edge => edge.center ∉ coupledNames lower centers) = placed := ⟨_, rfl⟩
  have split : (crews ++ placed).Perm other := by
    rw [← isPlaced]
    refine (among.append_right _).trans ?_
    have parts := List.filter_append_perm (fun edge => decide
      (edge.center ∈ coupledNames lower centers)) other
    simpa only [chosenAmong, decide_not] using parts
  have apart := (split.map CandidateEdge.person).nodup_iff.mpr distinct
  rw [List.map_append] at apart
  have inOther : ∀ edge ∈ placed, edge ∈ other ∧ edge.center ∉ coupledNames lower centers := by
    intro edge member
    rw [← isPlaced] at member
    exact ⟨List.mem_of_mem_filter member, by simpa using (List.mem_filter.mp member).2⟩
  have named : ∀ edge ∈ placed, ∃ center ∈ ordinaryCenters lower centers,
      center.center = edge.center := by
    intro edge member
    obtain ⟨inside, uncoupled⟩ := inOther edge member
    obtain ⟨center, listed, same⟩ := List.mem_map.mp (assignment.center edge inside)
    rw [← same, center_mem_coupledNames problem listed, not_not] at uncoupled
    exact ⟨center, mem_ordinaryCenters.mpr ⟨listed, uncoupled⟩, same⟩
  have fewer : ∀ name, loadAt placed name ≤ loadAt other name := fun name => by
    rw [← isPlaced]
    exact List.filter_sublist.countP_le
  have flow : FlowChoice (leftPeople lower people crews) (ordinaryCenters lower centers)
      (ordinaryCandidates lower centers candidates) placed := by
    refine ⟨fun edge member => ?_, fun edge member => ?_, fun edge member => ?_,
      (List.nodup_append.mp apart).2.1, fun center ordinary => ?_⟩
    · obtain ⟨inside, uncoupled⟩ := inOther edge member
      obtain ⟨center, ordinary, same⟩ := named edge member
      obtain ⟨listed, none⟩ := mem_ordinaryCenters.mp ordinary
      refine List.mem_filter.mpr ⟨assignment.ordinary center listed none ?_,
        decide_eq_true uncoupled⟩
      exact List.mem_filter.mpr ⟨inside, decide_eq_true same.symm⟩
    · refine List.mem_filter.mpr ⟨(mem_sortBy _).mpr (assignment.placed.mem_iff.mp
        (List.mem_map_of_mem (inOther edge member).1)), decide_eq_true fun inCrews => ?_⟩
      exact List.disjoint_of_nodup_append apart inCrews (List.mem_map_of_mem member)
    · obtain ⟨center, ordinary, same⟩ := named edge member
      exact same ▸ List.mem_map_of_mem ordinary
    · obtain ⟨listed, -⟩ := mem_ordinaryCenters.mp ordinary
      have places := places_eq_capacity problem listed
      have bound := assignment.capacity center listed
      have below := fewer center.center
      omega
  have leaf : Leaf lower people centers candidates crews placed := ⟨choice, flow⟩
  refine ⟨crews, placed, leaf, split, le_antisymm flow.length_le ?_, fun center ordinary => ?_⟩
  · have counted : (placed.map CandidateEdge.person).length = placed.length := List.length_map _
    rw [← counted]
    refine ((leftPeople_nodup problem.peopleDistinct crews).subperm fun name member => ?_).length_le
    obtain ⟨inside, left⟩ := List.mem_filter.mp member
    have somewhere := ((split.map CandidateEdge.person).trans assignment.placed).mem_iff.mpr
      ((mem_sortBy _).mp inside)
    rw [List.map_append, List.mem_append] at somewhere
    exact somewhere.resolve_left (of_decide_eq_true left)
  · have loads := (leaf.load_ordinary problem ordinary).2
    rw [loadAt, split.countP_eq, ← loadAt] at loads
    have enough := assignment.minimum center (mem_ordinaryCenters.mp ordinary).1
    unfold CompleteCenter.remainingMinimum
    omega

section Attempts

variable {search : CompleteSearch} {attemptOf : List String → CompleteAttempt}
  (samePeople : search.orderedPeople = sortBy lower people)
  (sameCenters : search.orderedCenters = sortBy (fun item => lower item.center) centers)
  (decisions : (attemptOf (leftPeople lower people crews)).decisions =
    sortDecisions lower (placed.map decision))

include samePeople decisions

omit problem in
/-- The decisions of a leaf are its crews and its placement. -/
theorem leaf_decisions_perm :
    (search.leaf lower attemptOf crews).decisions.Perm ((crews ++ placed).map decision) := by
  have same : search.remainingPeople (crews.map CandidateEdge.person) =
      leftPeople lower people crews := by
    rw [CompleteSearch.remainingPeople, samePeople]
    rfl
  unfold CompleteSearch.leaf
  rw [same]
  refine (sortBy_perm _ _).trans ?_
  rw [decisions, List.map_append]
  exact (sortBy_perm _ _).append_left _

include sameCenters

omit problem in
/-- A leaf is complete when it places everybody and fills every center. -/
theorem leaf_complete_iff : (search.leaf lower attemptOf crews).complete = true ↔
    (crews ++ placed).length = people.length ∧ ∀ center ∈ centers, center.minimum ≤
      center.protectedPeople.length + loadAt (crews ++ placed) center.center := by
  have same : search.remainingPeople (crews.map CandidateEdge.person) =
      leftPeople lower people crews := by
    rw [CompleteSearch.remainingPeople, samePeople]
    rfl
  have counts : ∀ name, countAssigned (loadAt crews)
      (attemptOf (leftPeople lower people crews)).decisions name =
        loadAt (crews ++ placed) name := by
    intro name
    rw [countAssigned_eq, decisions, assignedTo_sortDecisions, CompleteSearch.loadAt_append]
  have length := (leaf_decisions_perm samePeople decisions).length_eq
  rw [List.length_map] at length
  have everybody : (search.leaf lower attemptOf crews).allPeoplePlaced = true ↔
      (crews ++ placed).length = people.length := by
    have unfolded : (search.leaf lower attemptOf crews).allPeoplePlaced =
        ((sortBy lower ((search.leaf lower attemptOf crews).decisions.map
          AssignmentDecision.person)).length == search.orderedPeople.length) := rfl
    rw [unfolded, beq_iff_eq, length_sortBy, List.length_map, length, samePeople, length_sortBy]
  have slots : (search.leaf lower attemptOf crews).unsatisfiedSlots = 0 ↔
      ∀ center ∈ centers, center.minimum ≤
        center.protectedPeople.length + loadAt (crews ++ placed) center.center := by
    have unfolded : (search.leaf lower attemptOf crews).unsatisfiedSlots =
        (search.orderedCenters.map fun center => max (0 : ℤ) (center.minimum -
          center.protectedPeople.length -
            countAssigned (loadAt crews) (attemptOf (search.remainingPeople
              (crews.map CandidateEdge.person))).decisions center.center)).sum := rfl
    rw [unfolded, same, sameCenters]
    simp only [counts]
    constructor
    · intro none center listed
      have zero := List.all_zero_of_le_zero_le_of_sum_eq_zero (fun term member => ?_) none
        (List.mem_map_of_mem ((mem_sortBy _).mpr listed))
      · omega
      · obtain ⟨other, -, rfl⟩ := List.mem_map.mp member
        exact le_max_left _ _
    · intro filled
      refine List.sum_eq_zero fun term member => ?_
      obtain ⟨center, listed, rfl⟩ := List.mem_map.mp member
      have enough := filled center ((mem_sortBy _).mp listed)
      omega
  rw [CompleteAttempt.complete, Bool.and_eq_true_iff, beq_iff_eq, everybody, slots]

end Attempts

end Leaves

section Optimal

variable {lower : String → String} {people : List String} {centers : List CompleteCenter}
  {candidates : List CandidateEdge}

/-- Overrides before rank cost. -/
def decisionCosts (decisions : List AssignmentDecision) : ℕ ×ₗ ℤ :=
  toLex (overrideCount decisions, totalRankCost decisions)

variable {first second : List AssignmentDecision}

theorem decisionCosts_perm (perm : first.Perm second) :
    decisionCosts first = decisionCosts second := by
  rw [decisionCosts, decisionCosts, overrideCount_perm perm, totalRankCost_perm perm]

/-- Adding the same decisions keeps the comparison. -/
theorem decisionCosts_append_le (below : decisionCosts first ≤ decisionCosts second)
    (added : List AssignmentDecision) :
    decisionCosts (added ++ first) ≤ decisionCosts (added ++ second) := by
  unfold decisionCosts at below ⊢
  rw [overrideCount_append, overrideCount_append, totalRankCost_append, totalRankCost_append]
  simp only [Prod.Lex.toLex_le_toLex] at below ⊢
  omega

theorem decisionCosts_le_of_key_le {first second : CompleteAttempt}
    (below : completeAttemptKey lower first ≤ completeAttemptKey lower second) :
    decisionCosts first.decisions ≤ decisionCosts second.decisions := by
  unfold completeAttemptKey at below
  unfold decisionCosts
  simp only [Prod.Lex.toLex_le_toLex] at below ⊢
  omega

/-- For all sufficiently large fuel the solver keeps the better of the same attempts. -/
theorem solveCompleteSchedule_eventually
    (valid : validateCompleteProblem people centers candidates = .ok ())
    {attemptOf : List String → CompleteAttempt}
    (reached : ∀ names, names.Nodup → ∀ᶠ fuel in Filter.atTop,
      completeFlowAttempt lower fuel names (ordinaryCenters lower centers)
        (ordinaryCandidates lower centers candidates) = .ok (attemptOf names)) :
    ∀ᶠ fuel in Filter.atTop, solveCompleteSchedule lower fuel people centers candidates =
      .ok (scheduleResult lower (sortBy lower people)
        (sortBy (fun item => lower item.center) centers) (coupledCenters lower centers) candidates
        (((CompleteSearch.crewLeaves lower (coupledCenters lower centers) ∅).map
          ((completeSearch lower 0 people centers candidates).leaf lower attemptOf)).foldl
            (CompleteState.keep lower) {})) := by
  have problem := completeProblem_of_validate valid
  have distinct : (sortBy lower people).Nodup :=
    (sortBy_perm _ _).nodup_iff.mpr problem.peopleDistinct
  have together : ∀ᶠ fuel in Filter.atTop, ∀ names ∈ (sortBy lower people).sublists.toFinset,
      completeFlowAttempt lower fuel names (ordinaryCenters lower centers)
        (ordinaryCandidates lower centers candidates) = .ok (attemptOf names) :=
    (Filter.eventually_all_finset _).mpr fun names member => reached names
      (distinct.sublist (List.mem_sublists.mp (List.mem_toFinset.mp member)))
  refine together.mono fun fuel agree => ?_
  have visited := @CompleteSearch.visit_eq lower
    (completeSearch lower fuel people centers candidates) attemptOf
    (fun names sub => agree names (List.mem_toFinset.mpr (List.mem_sublists.mpr sub)))
    (coupledCenters lower centers) (coupledCenters_distinct problem) (crewOwn_coupled problem)
    ∅ [] {} (by simp)
  change (completeSearch lower fuel people centers candidates).visit lower
    (coupledCenters lower centers) ∅ [] (fun _ => 0) {} = _ at visited
  simp only [solveCompleteSchedule, valid, visited]
  rfl

/-- **Complete schedules are sound, complete and optimal.** -/
theorem solveCompleteSchedule_optimal
    (valid : validateCompleteProblem people centers candidates = .ok ())
    (nonneg : ∀ edge ∈ candidates, 0 ≤ edge.rankCost) :
    ∃ result, (∀ᶠ fuel in Filter.atTop,
        solveCompleteSchedule lower fuel people centers candidates = .ok result) ∧
      (result.complete = true ↔
        ∃ chosen, CompleteAssignment people centers candidates chosen) ∧
      (result.complete = true → ∃ chosen, CompleteAssignment people centers candidates chosen ∧
        result.decisions.Perm (chosen.map decision) ∧
        ∀ other, CompleteAssignment people centers candidates other →
          decisionCosts (chosen.map decision) ≤ decisionCosts (other.map decision)) ∧
      (result.complete = false → result.decisions = []) := by
  have problem := completeProblem_of_validate valid
  have flows : ∀ names, ∃ placed attempt, names.Nodup →
      (∀ᶠ fuel in Filter.atTop, completeFlowAttempt lower fuel names
        (ordinaryCenters lower centers) (ordinaryCandidates lower centers candidates) =
          .ok attempt) ∧
      attempt.decisions = sortDecisions lower (placed.map decision) ∧
      FlowChoice names (ordinaryCenters lower centers)
        (ordinaryCandidates lower centers candidates) placed ∧
      ∀ other, FlowChoice names (ordinaryCenters lower centers)
          (ordinaryCandidates lower centers candidates) other → other.length ≤ placed.length ∧
        (other.length = placed.length → Filled (ordinaryCenters lower centers) other →
          Filled (ordinaryCenters lower centers) placed ∧
          decisionCosts (placed.map decision) ≤ decisionCosts (other.map decision)) := by
    intro names
    by_cases distinct : names.Nodup
    · obtain ⟨placed, attempt, spec⟩ := @completeFlowAttempt_optimal lower names
        (ordinaryCenters lower centers) (ordinaryCandidates lower centers candidates)
        (flowProblem problem distinct nonneg)
      exact ⟨placed, attempt, fun _ => spec⟩
    · exact ⟨[], ⟨[], [], [], 0, false⟩, fun isDistinct => absurd isDistinct distinct⟩
  choose placedOf attemptOf spec using flows
  have left := @leftPeople_nodup lower people problem.peopleDistinct
  let leafOf := (completeSearch lower 0 people centers candidates).leaf lower attemptOf
  let placedFor := fun crews => placedOf (leftPeople lower people crews)
  have leaves : ∀ crews, CrewChoice CompleteCenter.crewOptions (coupledCenters lower centers) ∅
      crews → Leaf lower people centers candidates crews (placedFor crews) :=
    fun crews choice => ⟨choice, (spec _ (left crews)).2.2.1⟩
  have decisionsOf : ∀ crews,
      (leafOf crews).decisions.Perm ((crews ++ placedFor crews).map decision) :=
    fun crews => leaf_decisions_perm rfl (spec _ (left crews)).2.1
  have completeOf : ∀ crews, (leafOf crews).complete = true ↔
      (crews ++ placedFor crews).length = people.length ∧ ∀ center ∈ centers, center.minimum ≤
        center.protectedPeople.length + loadAt (crews ++ placedFor crews) center.center :=
    fun crews => leaf_complete_iff rfl rfl (spec _ (left crews)).2.1
  obtain ⟨final, isFinal⟩ : ∃ final, ((CompleteSearch.crewLeaves lower
    (coupledCenters lower centers) ∅).map leafOf).foldl (CompleteState.keep lower) {} = final :=
      ⟨_, rfl⟩
  obtain ⟨found, covered⟩ := @foldl_keep_spec lower
    ((CompleteSearch.crewLeaves lower (coupledCenters lower centers) ∅).map leafOf) {}
  rw [isFinal] at found covered
  -- Every assignment is matched by a complete leaf that costs no more.
  have below : ∀ other, CompleteAssignment people centers candidates other →
      ∃ best, final.bestComplete = some best ∧
        decisionCosts best.decisions ≤ decisionCosts (other.map decision) := by
    intro other assignment
    obtain ⟨crews, placed, leaf, split, everybody, filled⟩ :=
      @CompleteAssignment.exists_leaf lower _ _ _ problem _ assignment
    obtain ⟨-, -, flow, best⟩ := spec _ (left crews)
    obtain ⟨longest, cheapest⟩ := best placed leaf.flowChoice
    have asMany : placed.length = (placedFor crews).length :=
      le_antisymm longest (everybody ▸ flow.length_le)
    obtain ⟨alsoFilled, cheaper⟩ := cheapest asMany filled
    have complete : (leafOf crews).complete = true := by
      refine (completeOf crews).mpr ⟨?_, fun center listed => ?_⟩
      · rw [List.length_append, ← asMany, ← List.length_append, split.length_eq,
          ← assignment.placed.length_eq, List.length_map]
      · by_cases none : center.crewOptions = []
        · have ordinary : center ∈ ordinaryCenters lower centers :=
            mem_ordinaryCenters.mpr ⟨listed, none⟩
          rw [((leaves crews leaf.crewChoice).load_ordinary problem ordinary).2]
          have enough : center.remainingMinimum.toNat ≤ loadAt (placedFor crews) center.center :=
            alsoFilled center ordinary
          unfold CompleteCenter.remainingMinimum at enough
          omega
        · have coupled : center ∈ coupledCenters lower centers :=
            mem_coupledCenters.mpr ⟨listed, none⟩
          rw [((leaves crews leaf.crewChoice).load_coupled problem coupled).2,
            ← (leaf.load_coupled problem coupled).2, loadAt, split.countP_eq]
          exact assignment.minimum center listed
    obtain ⟨best, isBest, keyLe⟩ := covered (leafOf crews) (Or.inr
      ⟨List.mem_map_of_mem (CompleteSearch.mem_crewLeaves.mpr leaf.crewChoice), complete⟩)
    refine ⟨best, isBest, (decisionCosts_le_of_key_le keyLe).trans ?_⟩
    rw [decisionCosts_perm (decisionsOf crews), ← decisionCosts_perm (split.map decision),
      List.map_append, List.map_append]
    exact decisionCosts_append_le cheaper _
  -- The best leaf is an assignment.
  have sound : ∀ best, final.bestComplete = some best → ∃ chosen,
      CompleteAssignment people centers candidates chosen ∧
        best.decisions.Perm (chosen.map decision) := by
    intro best isBest
    rcases found best isBest with before | ⟨member, complete⟩
    · cases before
    · obtain ⟨crews, inside, rfl⟩ := List.mem_map.mp member
      obtain ⟨everybody, filled⟩ := (completeOf crews).mp complete
      exact ⟨crews ++ placedFor crews, (leaves crews (CompleteSearch.mem_crewLeaves.mp
        inside)).assignment problem everybody filled, decisionsOf crews⟩
  refine ⟨scheduleResult lower (sortBy lower people) (sortBy (fun item => lower item.center) centers)
    (coupledCenters lower centers) candidates final, ?_, ?_⟩
  · rw [← isFinal]
    exact solveCompleteSchedule_eventually valid fun names distinct => (spec names distinct).1
  · unfold scheduleResult
    cases isBest : final.bestComplete with
    | some best =>
        obtain ⟨chosen, assignment, perm⟩ := sound best isBest
        refine ⟨⟨fun _ => ⟨chosen, assignment⟩, fun _ => rfl⟩,
          fun _ => ⟨chosen, assignment, perm, fun other otherAssignment => ?_⟩,
          nofun⟩
        obtain ⟨same, isSame, cheaper⟩ := below other otherAssignment
        obtain rfl : best = same := Option.some.inj (isBest.symm.trans isSame)
        rwa [← decisionCosts_perm perm]
    | none =>
        refine ⟨⟨nofun, fun ⟨other, assignment⟩ => ?_⟩, nofun, fun _ => rfl⟩
        obtain ⟨best, isSome, -⟩ := below other assignment
        rw [isBest] at isSome
        cases isSome

end Optimal

/-- A saw with one crew of two and a press that takes up to two people. -/
def sawCrewAndPress : List CompleteCenter :=
  [{ center := "saw"
     group := "cutting"
     minimum := 2
     capacity := 2
     crewOptions := [⟨"saw", [⟨"ann", "saw", 3, .primary, 0⟩, ⟨"bob", "saw", 2, .regular, 4⟩]⟩] },
   { center := "press"
     group := "forming"
     minimum := 1
     capacity := 2
     protectedPeople := ["dee"] }]

theorem solveCompleteSchedule_optimal_sawCrewAndPress :
    ∃ result, (∀ᶠ fuel in Filter.atTop, solveCompleteSchedule id fuel ["bob", "ann", "cy"]
        sawCrewAndPress [⟨"bob", "press", 1, .never, 0⟩, ⟨"cy", "press", 1, .occasional, 7⟩] =
          .ok result) ∧
      (result.complete = true ↔ ∃ chosen, CompleteAssignment ["bob", "ann", "cy"] sawCrewAndPress
        [⟨"bob", "press", 1, .never, 0⟩, ⟨"cy", "press", 1, .occasional, 7⟩] chosen) ∧
      (result.complete = true → ∃ chosen, CompleteAssignment ["bob", "ann", "cy"] sawCrewAndPress
          [⟨"bob", "press", 1, .never, 0⟩, ⟨"cy", "press", 1, .occasional, 7⟩] chosen ∧
        result.decisions.Perm (chosen.map decision) ∧
        ∀ other, CompleteAssignment ["bob", "ann", "cy"] sawCrewAndPress
            [⟨"bob", "press", 1, .never, 0⟩, ⟨"cy", "press", 1, .occasional, 7⟩] other →
          decisionCosts (chosen.map decision) ≤ decisionCosts (other.map decision)) ∧
      (result.complete = false → result.decisions = []) :=
  solveCompleteSchedule_optimal (by decide +kernel) (by decide +kernel)

end PlantManager.Solver

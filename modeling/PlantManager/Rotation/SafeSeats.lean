import PlantManager.Rotation.Finished
import PlantManager.Rotation.ReservedSeats

/-! # No seat is unsafe or lost

`Rotation.Inputs.SafeSuggestion` says what a suggestion may do to a board, and
`Rotation.Inputs.suggest_safe` that every suggestion does no more: it keeps the base,
places everyone at most once, and only where they are qualified, within the capacities, and with
valid pairs at the trim saws. A person whom a training block lists twice for one exact center is
seated there twice.
-/

namespace PlantManager.Rotation

open Mapping Ranking Solver Roster

/-- The board of a suggestion. -/
def RecycledSuggestion.board (suggestion : RecycledSuggestion) : Board where
  assignments := suggestion.assignments
  origins := suggestion.origins
  warnings := suggestion.warnings

namespace Inputs

section Statements

variable (lower : String → String) (input : Inputs) (suggestion : RecycledSuggestion)

/-- The names at a center that were not there before. -/
def newlyPlaced (center : String) : List String :=
  (suggestion.board.seats center).drop (seatsAt input.base center).length

/-- On the active roster, outside the reserves, and qualified at a center. -/
structure MayWork (center name : String) : Prop where
  person : ∃ person, input.byName name = some person ∧ person.active = true ∧
    person.reserve = false
  level : ∃ group, input.centerGroup lower center = some group ∧ 1 ≤ input.levelOf name group

/-- **What a suggestion may do to a board.** -/
structure SafeSuggestion : Prop where
  outside : ∀ entry ∈ input.baseAssignments.entries, entry.1 ∉ input.allowedCenters →
    suggestion.board.seats entry.1 = entry.2.filter fun name => stripped name ≠ ""
  retained : ∀ center name, center ∈ input.allowedCenters → name ≠ "" →
    (baseSeats input.allowedCenters input.baseAssignments.entries).find?
      (fun seat => seat.2 = name) = some (center, name) → name ∈ suggestion.board.seats center
  kept : ∀ center, seatsAt input.base center <+: suggestion.board.seats center
  fresh : ∀ center, ∀ name ∈ input.newlyPlaced suggestion center, name ∉ seatedNames input.base
  apart : ∀ center other name, name ∈ input.newlyPlaced suggestion center →
    name ∈ input.newlyPlaced suggestion other → center = other
  once : ∀ center name, 2 ≤ (input.newlyPlaced suggestion center).count name →
    input.Repeated center name
  mayWork : ∀ center, ∀ name ∈ input.newlyPlaced suggestion center,
    MayWork lower input center name ∨ FromTraining suggestion.board center name
  within : ∀ center ∈ input.allowedCenters, ((suggestion.board.seats center).length : ℤ) ≤
    max (input.effectiveCapacity center) (seatsAt input.base center).length +
      (seatsAt suggestion.temporaryTrainingExtras center).length
  trimSaw : ∀ center, input.centerGroup lower center = some trimSawSkill →
    (∃ name ∈ suggestion.board.seats center, ∃ reason,
      suggestion.board.origin center name = some (.generated reason) ∧
        reason.code ≠ "training_block") →
    FormsTrimSawPair ((suggestion.board.seats center).map fun name =>
      input.levelOf name trimSawSkill)

end Statements

variable {lower : String → String} {input : Inputs}

/-! ## Origins on the finished board -/

/-- Decisions are placed for reasons other than training, and nothing else changes. -/
structure FilledFrom (start next : Board) (items : List AssignmentDecision) : Prop where
  filled : ∀ item ∈ items, ∃ reason, reason.code ≠ "training_block" ∧
    next.origin item.center item.person = some (.generated reason)
  same : ∀ center name, (∀ item ∈ items, ¬(item.center = center ∧ item.person = name)) →
    next.origin center name = start.origin center name

theorem FilledFrom.nil (board : Board) : FilledFrom board board [] :=
  ⟨fun _ member => absurd member List.not_mem_nil, fun _ _ _ => rfl⟩

theorem FilledFrom.trans {start middle next : Board} {items more : List AssignmentDecision}
    (first : FilledFrom start middle items) (second : FilledFrom middle next more) :
    FilledFrom start next (items ++ more) where
  filled := by
    intro item member
    by_cases again : ∃ other ∈ more, other.center = item.center ∧ other.person = item.person
    · obtain ⟨other, inMore, center, person⟩ := again
      exact center ▸ person ▸ second.filled other inMore
    · have before : item ∈ items := (List.mem_append.mp member).resolve_right
        fun inMore => again ⟨item, inMore, rfl, rfl⟩
      rw [second.same item.center item.person fun other inMore both => again ⟨other, inMore, both⟩]
      exact first.filled item before
  same := fun center name none => (second.same center name
    fun item inMore => none item (List.mem_append_right _ inMore)).trans
      (first.same center name fun item before => none item (List.mem_append_left _ before))

theorem FilledFrom.congr {start next : Board} {items more : List AssignmentDecision}
    (filled : FilledFrom start next items) (same : ∀ item, item ∈ more ↔ item ∈ items) :
    FilledFrom start next more :=
  ⟨fun item member => filled.filled item ((same item).mp member),
    fun center name none => filled.same center name
      fun item member => none item ((same item).mpr member)⟩

theorem filledFrom_foldl_placeDecision (defaults : Defaults) (group : String)
    (items : List AssignmentDecision) (filling : Filling) :
    FilledFrom filling.board
      (items.foldl (input.placeDecision defaults group) filling).board items := by
  induction items generalizing filling with
  | nil => exact .nil _
  | cons item rest ih =>
      obtain ⟨reason, code, placed⟩ := input.placeDecision_board defaults group filling item
      have one : FilledFrom filling.board
          (input.placeDecision defaults group filling item).board [item] := by
        rw [placed]
        refine ⟨List.forall_mem_singleton.mpr ⟨reason, code, ?_⟩, fun center name other => ?_⟩
        · rw [Board.origin_place, if_pos ⟨rfl, rfl⟩]
        · have different := other item List.mem_cons_self
          rw [Board.origin_place, if_neg fun both => different ⟨both.1.symm, both.2.symm⟩]
      exact one.trans (ih _)

theorem filledFrom_foldl_placeCenter {plan : FillPlan} {minimumOf : String → ℤ}
    {entries : List (String × List AssignmentDecision)}
    (grouped : ∀ entry ∈ entries, ∃ group, input.centerGroup lower entry.1 = some group)
    (filling : Filling) : FilledFrom filling.board
      (entries.foldl (input.placeCenter lower plan minimumOf) filling).board
        (entries.flatMap Prod.snd) := by
  induction entries generalizing filling with
  | nil => exact .nil _
  | cons entry rest ih =>
      obtain ⟨⟨group, inGroup⟩, others⟩ := List.forall_mem_cons.mp grouped
      refine FilledFrom.trans ?_ (ih others _)
      rw [placeCenter, inGroup]
      exact FilledFrom.congr (@filledFrom_foldl_placeDecision input plan.defaults group _
        { filling with remainingMinimum := minimumOf entry.1 })
          fun item => (sortBy_perm _ _).symm.mem_iff

/-- The origins of a suggestion are those of the reservations and of the decisions. -/
theorem filledFrom_finish {plan : FillPlan} {crews flow : List AssignmentDecision}
    (grouped : Grouped lower input (crews ++ flow)) :
    FilledFrom plan.reservations.board (input.finish lower plan crews flow).board
      (crews ++ flow) := by
  have sorted := sortBy_perm (decisionKey lower) (crews ++ flow)
  have filled : FilledFrom plan.reservations.board
      (input.placeDecisions lower plan crews flow).board _ :=
    filledFrom_foldl_placeCenter (entries_grouped grouped) { board := plan.reservations.board }
  have same := filled.congr fun item =>
    ((Dictionary.flatMap_groupBy_perm _ _).trans sorted).symm.mem_iff
  exact ⟨same.filled, same.same⟩

/-! ## Who is decided where -/

theorem decidedAt_partialFill (chosen : List CandidateEdge) (center : String) :
    decidedAt (chosen.map partialFill) center =
      (chosenFor chosen center).map CandidateEdge.person := by
  rw [decidedAt, List.filter_map, List.map_map]
  rfl

variable {planned : CenterPlan}

/-- At each center the crews have one of its crews, or nobody. -/
theorem crewsAt_cases (inPlan : planned ∈ (input.fillPlan lower).centers) :
    decidedAt (input.crews lower) planned.center.center = [] ∨
      ∃ option ∈ fittingCrews input.minimumOnly (input.fillPlan lower) planned,
        decidedAt (input.crews lower) planned.center.center = option.people := by
  obtain ⟨chosen, same, choice⟩ := @crews_choice lower input
  have own : ∀ center ∈ coupledPlans lower input,
      ∀ option ∈ fittingCrews input.minimumOnly (input.fillPlan lower) center,
      ∀ member ∈ option.members, member.center = center.center.center := by
    intro center listed option fitting member inCrew
    obtain ⟨-, group, -, offered⟩ := offered_of_mem (mem_of_mem_coupledPlans listed) fitting
    exact of_decide_eq_true (List.mem_filter.mp (offered.members.subset inCrew)).2
  rw [same, decidedAt_partialFill]
  by_cases coupled : planned ∈ coupledPlans lower input
  · obtain none | ⟨option, fitting, members⟩ :=
      choice.chosenFor_eq nodup_coupledPlans own planned coupled
    · exact .inl (congrArg (List.map CandidateEdge.person) none)
    · exact .inr ⟨option, fitting, congrArg (List.map CandidateEdge.person) members⟩
  · left
    rw [List.map_eq_nil_iff]
    refine List.filter_eq_nil_iff.mpr fun edge picked here => coupled ?_
    obtain ⟨other, listed, centers⟩ := List.mem_map.mp (choice.centers own edge picked)
    have distinct : ((input.fillPlan lower).centers.map fun planned =>
        planned.center.center).Nodup := map_center_planCenters ▸ nodup_sortedCenters
    have equal := List.inj_on_of_nodup_map distinct (mem_of_mem_coupledPlans listed) inPlan
      (centers.trans (of_decide_eq_true here))
    exact equal ▸ listed

variable {flow : List AssignmentDecision} {chosen : List CandidateEdge}

theorem crews_people : ((input.crews lower).map AssignmentDecision.person).Nodup ∧
    ∀ item ∈ input.crews lower, item.person ∈ (input.fillPlan lower).people := by
  constructor
  · obtain ⟨chosen, same, choice⟩ := @crews_choice lower input
    rw [same, map_person_partialFill]
    refine (choice.people fun center listed option fitting => ?_).1
    obtain ⟨-, group, -, offered⟩ := offered_of_mem (mem_of_mem_coupledPlans listed) fitting
    exact offered.nodup
  · intro item member
    obtain ⟨edge, candidate, rfl, -⟩ := of_mem_crews member
    exact (of_mem_candidateEdges candidate).1

section

variable (decided : Decided lower input flow chosen)
include decided

/-- The decisions are about different people, all of whom were still to be placed. -/
theorem Decided.people :
    ((input.crews lower ++ flow).map AssignmentDecision.person).Nodup ∧
      ∀ item ∈ input.crews lower ++ flow, item.person ∈ (input.fillPlan lower).people := by
  obtain ⟨distinct, crewsPlanned⟩ := @crews_people lower input
  have placement := decided.best.placement
  have inFlow : ∀ item ∈ flow,
      item.person ∈ flowPeople (input.fillPlan lower) (input.crews lower) := by
    intro item member
    obtain ⟨edge, picked, rfl⟩ := List.mem_map.mp (decided.perm.mem_iff.mp member)
    exact placement.person edge picked
  constructor
  · rw [List.map_append]
    refine List.Nodup.append distinct ?_ fun name inCrews sent => ?_
    · rw [(decided.perm.map _).nodup_iff, List.map_map]
      exact placement.once
    · obtain ⟨item, member, rfl⟩ := List.mem_map.mp sent
      exact of_decide_eq_true (List.mem_filter.mp (inFlow item member)).2 inCrews
  · intro item member
    rcases List.mem_append.mp member with crew | sent
    · exact crewsPlanned item crew
    · exact (List.mem_filter.mp (inFlow item sent)).1

/-- A decision sends somebody where they may work. -/
theorem Decided.mayWork {item : AssignmentDecision} (member : item ∈ input.crews lower ++ flow) :
    MayWork lower input item.center item.person := by
  have person := (decided.people.2 item member)
  refine ⟨mem_availableNames.mp (List.mem_filter.mp person).1, ?_⟩
  rcases List.mem_append.mp member with crew | sent
  · obtain ⟨edge, candidate, rfl, -⟩ := of_mem_crews crew
    exact (of_mem_candidateEdges candidate).2.level
  · obtain ⟨edge, picked, rfl⟩ := List.mem_map.mp (decided.perm.mem_iff.mp sent)
    have direct := (List.mem_filter.mp (decided.best.placement.candidate picked)).1
    exact (of_mem_candidateEdges (mem_edges_of_mem_direct direct).1).2.level

/-- The flow sends nobody to a coupled center. -/
theorem Decided.not_coupled (inPlan : planned ∈ (input.fillPlan lower).centers)
    (coupled : planned.coupled = true) : decidedAt flow planned.center.center = [] := by
  rw [decidedAt, List.map_eq_nil_iff]
  refine List.filter_eq_nil_iff.mpr fun item member here => ?_
  obtain ⟨edge, picked, rfl⟩ := List.mem_map.mp (decided.perm.mem_iff.mp member)
  have direct := (List.mem_filter.mp (decided.best.placement.candidate picked)).1
  obtain ⟨-, other, listed, free, center⟩ := mem_edges_of_mem_direct direct
  have distinct : ((input.fillPlan lower).centers.map fun planned =>
      planned.center.center).Nodup := map_center_planCenters ▸ nodup_sortedCenters
  have equal := List.inj_on_of_nodup_map distinct listed inPlan
    (center.symm.trans (of_decide_eq_true here))
  rw [equal, coupled] at free
  cases free

theorem length_flowAt (center : String) :
    (decidedAt flow center).length = loadAt chosen center := by
  rw [length_decidedAt, assignedTo, decided.perm.countP_eq, List.countP_map]
  rfl

/-- The decisions for a center fit into the places that the reservations leave. -/
theorem Decided.length_le (inPlan : planned ∈ (input.fillPlan lower).centers) :
    ((decidedAt (input.crews lower ++ flow) planned.center.center).length : ℤ) ≤
      max 0 (input.effectiveCapacity planned.center.center -
        ((input.reservations lower).board.seats planned.center.center).length) := by
  have start : startingCapacity input.minimumOnly (input.fillPlan lower) planned ≤
      planned.center.capacity := by
    unfold startingCapacity
    split
    · exact min_le_left _ _
    · exact le_rfl
  have planCapacity : planned.center.capacity ≤
      max 0 (input.effectiveCapacity planned.center.center -
        ((input.reservations lower).board.seats planned.center.center).length) := by
    obtain ⟨center, group, -, rfl⟩ := mem_planCenters inPlan
    exact planCenter_capacity_le _ _ group center
  have sent := decided.best.placement.capacity _
    (List.mem_map_of_mem (f := flowCenter input.minimumOnly (input.fillPlan lower)
      (input.crews lower)) inPlan)
  change (loadAt chosen planned.center.center : ℤ) ≤ max 0 (startingCapacity _ _ planned -
    assignedTo (input.crews lower) planned.center.center) at sent
  have crews : ((decidedAt (input.crews lower) planned.center.center).length : ℤ) ≤
      max 0 (startingCapacity input.minimumOnly (input.fillPlan lower) planned) := by
    obtain none | ⟨option, fitting, same⟩ := crewsAt_cases inPlan
    · rw [none]
      exact le_max_left _ _
    · rw [same, CrewOption.people, List.length_map]
      exact (mem_fittingCrews.mp fitting).2.trans (le_max_right _ _)
  rw [decidedAt_append, List.length_append, Nat.cast_add, length_flowAt decided]
  rw [length_decidedAt] at crews ⊢
  omega

end

theorem formsTrimSawPair_perm {first second : List ℤ} (perm : first.Perm second)
    (forms : FormsTrimSawPair first) : FormsTrimSawPair second := by
  match first, forms with
  | [one, two], valid =>
      obtain ⟨other, another, rfl⟩ := List.length_eq_two.mp perm.length_eq.symm
      rcases List.mem_cons.mp (perm.mem_iff.mp List.mem_cons_self) with rfl | last
      · obtain rfl := List.singleton_perm_singleton.mp (List.perm_cons one |>.mp perm)
        exact valid
      · obtain rfl := List.mem_singleton.mp last
        have rest := (List.perm_cons one).mp (perm.trans (List.Perm.swap one other []))
        obtain rfl := List.singleton_perm_singleton.mp rest
        change (if min two one ≤ 1 then 3 ≤ max two one else 2 ≤ min two one)
        rw [min_comm, max_comm]
        exact valid

/-! ## The whole suggestion -/

/-- The finished board: the base, then what was reserved, then what was decided. -/
structure Filled (lower : String → String) (input : Inputs) (flow : List AssignmentDecision)
    (reserved decidedFor : String → List String) : Prop where
  added : Reserved lower input (input.reservations lower) reserved
  seats : ∀ center, (input.finish lower (input.fillPlan lower) (input.crews lower)
    flow).board.seats center = seatsAt input.base center ++ (reserved center ++ decidedFor center)
  perm : ∀ center, (decidedFor center).Perm (decidedAt (input.crews lower ++ flow) center)

theorem Decided.filled (decided : Decided lower input flow chosen) :
    ∃ reserved decidedFor, Filled lower input flow reserved decidedFor := by
  obtain ⟨reserved, added⟩ := reservations_added lower input
  choose decidedFor seats perm using fun center =>
    @seatsAt_finish lower input flow (input.fillPlan lower) _ decided.grouped center
  refine ⟨reserved, decidedFor, added, fun center => ?_, perm⟩
  rw [← List.append_assoc, ← added.kept.seats]
  exact seats center

theorem Decided.origins (decided : Decided lower input flow chosen) :
    FilledFrom (input.reservations lower).board
      (input.finish lower (input.fillPlan lower) (input.crews lower) flow).board
        (input.crews lower ++ flow) :=
  @filledFrom_finish lower input (input.fillPlan lower) _ _ decided.grouped

section Safe

variable {reserved decidedFor : String → List String}

theorem Filled.newlyPlaced (filled : Filled lower input flow reserved decidedFor)
    (center : String) : input.newlyPlaced (input.finish lower (input.fillPlan lower)
      (input.crews lower) flow) center = reserved center ++ decidedFor center := by
  rw [Inputs.newlyPlaced, filled.seats, List.drop_left]

/-- Whoever was decided is not on the board with the reservations. -/
theorem Decided.unassigned (decided : Decided lower input flow chosen) {item : AssignmentDecision}
    (member : item ∈ input.crews lower ++ flow) :
    item.person ∉ (input.reservations lower).board.assigned :=
  (of_decide_eq_true (List.mem_filter.mp (decided.people.2 item member)).2).1

section

variable (filled : Filled lower input flow reserved decidedFor)
include filled

theorem Filled.mem_decidedFor {center name : String} (member : name ∈ decidedFor center) :
    ∃ item ∈ input.crews lower ++ flow, item.center = center ∧ item.person = name :=
  mem_decidedAt.mp ((filled.perm center).mem_iff.mp member)

/-- Reserved and decided names are different. -/
theorem Filled.disjoint (decided : Decided lower input flow chosen) {center other name : String}
    (held : name ∈ reserved center) (sent : name ∈ decidedFor other) : False := by
  obtain ⟨item, member, -, rfl⟩ := filled.mem_decidedFor sent
  exact decided.unassigned member (filled.added.kept.assigned held)

/-- What was reserved for training is still so on the finished board. -/
theorem Filled.training (decided : Decided lower input flow chosen) {center name : String}
    (held : name ∈ reserved center)
    (training : FromTraining (input.reservations lower).board center name) :
    FromTraining (input.finish lower (input.fillPlan lower) (input.crews lower) flow).board
      center name := by
  obtain ⟨reason, known, code⟩ := training
  refine ⟨reason, ?_, code⟩
  rw [decided.origins.same center name fun item member both => ?_]
  · exact known
  · exact decided.unassigned member (both.2 ▸ filled.added.kept.assigned held)

theorem Filled.within (decided : Decided lower input flow chosen) {center : String}
    (runs : center ∈ input.allowedCenters) : ∃ extras : Finset String,
      (∀ name ∈ extras, name ∈ seatsAt (input.reservations lower).temporaryTrainingExtras center ∧
        name ∈ (input.reservations lower).board.seats center ∧
        FromTraining (input.reservations lower).board center name) ∧
      (((input.finish lower (input.fillPlan lower) (input.crews lower) flow).board.seats
        center).length : ℤ) ≤
          max (input.effectiveCapacity center + extras.card) (seatsAt input.base center).length := by
  obtain ⟨extras, known, bound⟩ := filled.added.within center
  refine ⟨extras, known, ?_⟩
  obtain ⟨planned, inPlan, rfl⟩ : ∃ planned ∈ (input.fillPlan lower).centers,
      planned.center.center = center := by
    have listed : center ∈ input.sortedCenters lower := mem_sortedCenters.mpr runs
    rw [← map_center_planCenters] at listed
    exact List.mem_map.mp listed
  have length := decided.length_le inPlan
  rw [← (filled.perm _).length_eq] at length
  rw [filled.seats, ← List.append_assoc, ← filled.added.kept.seats, List.length_append,
    Nat.cast_add]
  omega

theorem Filled.trimSaw (decided : Decided lower input flow chosen) {center : String}
    (inGroup : input.centerGroup lower center = some trimSawSkill) {name : String} {reason : Reason}
    (origin : (input.finish lower (input.fillPlan lower) (input.crews lower)
      flow).board.origin center name = some (.generated reason))
    (code : reason.code ≠ "training_block") :
    FormsTrimSawPair (((input.finish lower (input.fillPlan lower) (input.crews lower)
      flow).board.seats center).map fun name => input.levelOf name trimSawSkill) := by
  have sent : decidedAt (input.crews lower ++ flow) center ≠ [] := by
    intro nobody
    rw [decided.origins.same center name fun item member both =>
      List.ne_nil_of_mem (mem_decidedAt.mpr ⟨item, member, both⟩) nobody] at origin
    exact code (filled.added.kept.training center name reason origin)
  have listed : center ∈ input.sortedCenters lower :=
    mem_sortedCenters.mpr (mem_allowedCenters_of_centerGroup inGroup)
  rw [← map_center_planCenters] at listed
  obtain ⟨planned, inPlan, rfl⟩ := List.mem_map.mp listed
  have coupled : planned.coupled = true := by
    obtain ⟨place, group, found, rfl⟩ := mem_planCenters inPlan
    have same : group = trimSawSkill := Option.some.inj (found.symm.trans inGroup)
    exact decide_eq_true (.inl same)
  rw [decidedAt_append, decided.not_coupled inPlan coupled, List.append_nil] at sent
  obtain nobody | ⟨option, fitting, crew⟩ := crewsAt_cases inPlan
  · exact absurd nobody sent
  obtain ⟨-, group, found, offered⟩ := offered_of_mem inPlan fitting
  obtain rfl : group = trimSawSkill := Option.some.inj (found.symm.trans inGroup)
  have perm := filled.perm planned.center.center
  rw [decidedAt_append, decided.not_coupled inPlan coupled, List.append_nil, crew] at perm
  refine formsTrimSawPair_perm (List.Perm.map _ ?_) (offered.safe.2 rfl)
  rw [filled.seats, ← List.append_assoc, ← filled.added.kept.seats]
  exact perm.symm.append_left _

end

end Safe

theorem Decided.safe (decided : Decided lower input flow chosen) : SafeSuggestion lower input
    (input.finish lower (input.fillPlan lower) (input.crews lower) flow) := by
  obtain ⟨reserved, decidedFor, filled⟩ := decided.filled
  have kept := filled.added.kept
  have distinct := decided.people.1
  refine {
    outside := ?_
    retained := ?_
    kept := fun center => ⟨_, (filled.seats center).symm⟩
    fresh := ?_
    apart := ?_
    once := ?_
    mayWork := ?_
    within := ?_
    trimSaw := fun center inGroup ⟨name, _, reason, origin, code⟩ =>
      filled.trimSaw decided inGroup origin code }
  · intro entry listed rests
    have nobody : reserved entry.1 ++ decidedFor entry.1 = [] := by
      refine List.eq_nil_iff_forall_not_mem.mpr fun name member => rests ?_
      rcases List.mem_append.mp member with held | sent
      · exact kept.runs entry.1 name held
      · obtain ⟨item, inDecisions, center, -⟩ := filled.mem_decidedFor sent
        obtain ⟨group, inGroup⟩ := decided.grouped item inDecisions
        exact center ▸ mem_allowedCenters_of_centerGroup inGroup
    rw [filled.seats, nobody, List.append_nil]
    exact seatsAt_copyBase_of_notMem rests listed
  · intro center name runs named first
    rw [filled.seats]
    refine List.mem_append_left _ (mem_seatsAt_of_first input.baseAssignments.distinct named runs
      first fun seated => ?_)
    obtain ⟨place, member⟩ := mem_seatedNames.mp seated
    cases member
  · intro center name member
    rw [filled.newlyPlaced] at member
    rcases List.mem_append.mp member with held | sent
    · exact kept.fresh center name held
    · obtain ⟨item, inDecisions, -, rfl⟩ := filled.mem_decidedFor sent
      exact fun seated => decided.unassigned inDecisions (kept.assigned_base seated)
  · intro center other name member again
    rw [filled.newlyPlaced] at member again
    rcases List.mem_append.mp member with held | sent <;>
      rcases List.mem_append.mp again with heldToo | sentToo
    · exact kept.apart center other name held heldToo
    · exact (filled.disjoint decided held sentToo).elim
    · exact (filled.disjoint decided heldToo sent).elim
    · obtain ⟨item, inDecisions, rfl, rfl⟩ := filled.mem_decidedFor sent
      obtain ⟨second, also, rfl, same⟩ := filled.mem_decidedFor sentToo
      exact congrArg AssignmentDecision.center
        (List.inj_on_of_nodup_map distinct inDecisions also same.symm)
  · intro center name twice
    rw [filled.newlyPlaced, List.count_append] at twice
    have one : (decidedFor center).count name ≤ 1 := by
      rw [(filled.perm center).count_eq]
      exact List.nodup_iff_count_le_one.mp (distinct.sublist (List.filter_sublist.map _)) name
    by_cases held : name ∈ reserved center
    · have none : (decidedFor center).count name = 0 :=
        List.count_eq_zero.mpr fun sent => filled.disjoint decided held sent
      refine kept.once center name ?_
      omega
    · have none := List.count_eq_zero.mpr held
      omega
  · intro center name member
    rw [filled.newlyPlaced] at member
    rcases List.mem_append.mp member with held | sent
    · refine (kept.placed center name held).imp (fun eligible => ?_) (filled.training decided held)
      exact ⟨mem_availableNames.mp eligible.available, eligible.level⟩
    · obtain ⟨item, inDecisions, rfl, rfl⟩ := filled.mem_decidedFor sent
      exact .inl (decided.mayWork inDecisions)
  · intro center runs
    obtain ⟨extras, known, bound⟩ := filled.within decided runs
    have fewer : extras.card ≤
        (seatsAt (input.reservations lower).temporaryTrainingExtras center).length := by
      refine (Finset.card_le_card fun name member => ?_).trans (List.toFinset_card_le _)
      exact List.mem_toFinset.mpr (known name member).1
    change _ ≤ _ + ((seatsAt (input.reservations lower).temporaryTrainingExtras center).length : ℤ)
    omega

/-- **No seat is unsafe or lost.** -/
theorem suggest_safe (lower : String → String) (input : Inputs) :
    ∃ suggestion, (∀ᶠ fuel in Filter.atTop, input.suggest lower fuel = .ok suggestion) ∧
      SafeSuggestion lower input suggestion := by
  obtain ⟨result, reached, chosen, best, perm⟩ := @flow_best lower input
  have decided : Decided lower input result.decisions chosen := ⟨best, perm⟩
  refine ⟨_, reached.mono fun fuel finished => ?_, decided.safe⟩
  rw [suggest, finished]
  rfl

end Inputs

/-! ## Blank names and a trainee listed twice -/

def fitter : Person := { name := "bob", skills := ⟨[("Repair", 3)], by decide⟩ }

/-- A yard that does not run, with a blank name, and a block that lists its trainee twice. -/
def yardAndBench : Inputs where
  mode := .normal
  roster := ⟨[fitter], by decide⟩
  baseAssignments := ⟨[("Yard", ["", "ann"])], by decide⟩
  groupLocations := ⟨[("Repair", ["Repair 1"])], by decide⟩
  blockEffects := [{ lockedWorkCenters := ⟨[("Repair 1", ["bob", "bob"])], by decide⟩ }]
  centerCapacities := ⟨[("Repair 1", some 2)], by decide⟩

/-- The blank name is not copied, and the trainee is seated twice. -/
theorem blank_dropped_trainee_twice : "Yard" ∉ yardAndBench.allowedCenters ∧
    seatsAt yardAndBench.baseAssignments "Yard" = ["", "ann"] ∧
    ∃ suggestion, yardAndBench.suggest id 10 = .ok suggestion ∧
      suggestion.board.seats "Yard" = ["ann"] ∧
      suggestion.board.seats "Repair 1" = ["bob", "bob"] := by
  refine ⟨by decide +kernel, by decide +kernel, ?_⟩
  obtain ⟨suggestion, run, seats⟩ : ∃ suggestion,
      (yardAndBench.suggest id 10).toOption = some suggestion ∧
        (suggestion.board.seats "Yard", suggestion.board.seats "Repair 1") =
          (["ann"], ["bob", "bob"]) :=
    Option.map_eq_some_iff.mp (by decide +kernel)
  obtain ⟨yard, bench⟩ := Prod.mk.inj seats
  exact ⟨suggestion, Checks.eq_ok_of_toOption run, yard, bench⟩

end PlantManager.Rotation

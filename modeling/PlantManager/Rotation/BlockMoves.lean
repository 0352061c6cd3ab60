import PlantManager.Rotation.Openings

/-! # What a training block can do

`Rotation.Inputs.Move` lists the steps by which a training block changes the
reservations, each with the checks made before it, and
`Rotation.Inputs.applyEffect_moves` says that a block takes only such steps.
-/

namespace PlantManager.Rotation

open Mapping Ranking Solver Roster Relation

namespace Inputs

variable (lower : String → String) (input : Inputs)

/-- Only warnings, and who belongs to an exact block, differ. -/
structure Noted (state next : Reservations) : Prop where
  assignments : next.board.assignments = state.board.assignments
  origins : next.board.origins = state.board.origins
  protectedPeople : next.protectedBlockPeople = state.protectedBlockPeople
  blockCenters : next.blockCenters = state.blockCenters
  extras : next.temporaryTrainingExtras = state.temporaryTrainingExtras
  trainees : next.trainingTrainees = state.trainingTrainees

/-- Seat a trainee of a group and record the trainee for the center. -/
def recordTrainee (group center name : String) (state : Reservations) : Reservations :=
  let placed := state.placeTrainee group center name
  { placed with trainingTrainees := placed.trainingTrainees.alter center fun stored =>
      let prior := stored.getD []
      if name ∈ prior then prior else prior ++ [name] }

/-- One step of a training block. -/
inductive Move (effect : BlockEffect) (state : Reservations) : Reservations → Prop where
  | note {next : Reservations} : Noted state next → Move effect state next
  | exact {group center : String} {trainees trainers : List String}
      (trainees_eq : trainees = cleanNames (seatsAt effect.lockedWorkCenters center))
      (trainers_eq : trainers = cleanNames (seatsAt effect.temporaryExtraWorkCenters center))
      (inGroup : input.centerGroup lower center = some group)
      (free : ∀ name ∈ trainees ++ trainers,
        name ∈ input.availableNames lower ∧ name ∉ state.board.assigned)
      (room : (state.board.seats center).length + trainees.length ≤
        input.effectiveCapacity center) :
      Move effect state ((state.placeTrainees group center trainees).placeTrainers center trainers)
  | trainee {group center name : String}
      (listed : name ∈ seatsAt effect.lockedPeople group)
      (inGroup : center ∈ input.groupCenters group)
      (free : name ∉ state.board.assigned)
      (room : (state.board.seats center).length < input.effectiveCapacity center) :
      Move effect state (recordTrainee group center name state)
  | trainer {group center name : String}
      (listed : name ∈ seatsAt effect.temporaryExtraPeople group)
      (inGroup : center ∈ input.groupCenters group)
      (free : name ∉ state.board.assigned)
      (room : (state.board.seats center).length < input.effectiveCapacity center) :
      Move effect state (state.placeTrainer center name)

end Inputs

namespace Inputs

variable {lower : String → String} {input : Inputs} {effect : BlockEffect}

theorem Noted.warnExact (state : Reservations) (center message : String) :
    Noted state (state.warnExactCenter center message) :=
  ⟨Board.assignments_warnOnce _ _, Board.origins_warnOnce _ _, rfl, rfl, rfl, rfl⟩

/-- Reserving at one exact center either warns or seats everybody. -/
theorem reserveExact_move (state : Reservations) (center : String) :
    Move lower input effect state (input.reserveExact lower effect state center) := by
  unfold reserveExact
  cases inGroup : input.centerGroup lower center with
  | none => exact .note (.warnExact state center _)
  | some group =>
      dsimp only
      cases unavailable : (cleanNames (seatsAt effect.lockedWorkCenters center) ++
          cleanNames (seatsAt effect.temporaryExtraWorkCenters center)).find? fun name =>
            name ∉ input.availableNames lower with
      | some name => exact .note (.warnExact state center _)
      | none =>
          cases taken : (cleanNames (seatsAt effect.lockedWorkCenters center) ++
              cleanNames (seatsAt effect.temporaryExtraWorkCenters center)).find? fun name =>
                name ∈ state.board.assigned with
          | some name => exact .note (.warnExact state center _)
          | none =>
              dsimp only
              split
              · exact .note (.warnExact state center _)
              · rename_i room
                refine .exact rfl rfl inGroup (fun name member => ⟨?_, ?_⟩) (not_lt.mp room)
                · have available := List.find?_eq_none.mp unavailable name member
                  simpa using available
                · have free := List.find?_eq_none.mp taken name member
                  simpa using free

theorem reserveAllExact_moves (state : Reservations) :
    ReflTransGen (Move lower input effect) state (input.reserveAllExact lower effect state) := by
  unfold reserveAllExact
  dsimp only
  split
  · refine List.foldlRecOn (motive := ReflTransGen (Move lower input effect) state) _ _ .refl ?_
    exact fun middle moves center _ => moves.tail (reserveExact_move middle center)
  · refine List.foldlRecOn (motive := ReflTransGen (Move lower input effect) state) _ _ .refl ?_
    exact fun middle moves center _ => moves.tail (.note (.warnExact middle center _))

/-! ## Groups -/

variable {group name : String}

theorem mem_of_chooseCenter {center : String} {centers : List String} {history : RecycledHistory}
    (chosen : chooseCenter lower name group centers history = some center) : center ∈ centers :=
  (mem_sortBy _).mp (List.mem_of_mem_head? (Option.mem_def.mpr chosen))

theorem mem_of_choosePrioritizedCenter {board : Board} {center : String} {centers : List String}
    (chosen : input.choosePrioritizedCenter lower board name group centers = some center) :
    center ∈ centers := by
  obtain ⟨first, -, found⟩ := Option.bind_eq_some_iff.mp chosen
  exact (mem_sortBy _).mp (List.mem_filter.mp (mem_of_chooseCenter found)).1

/-- The steps of one block so far, with its trainees seated in their groups. -/
structure GroupMoves (lower : String → String) (input : Inputs) (effect : BlockEffect)
    (start : Reservations) (state : GroupReservations) : Prop where
  moves : ReflTransGen (Move lower input effect) start state.reservations
  centers : ∀ group center, state.blockCenterByGroup.get group = some center →
    center ∈ input.groupCenters group

variable {start : Reservations} {state : GroupReservations}

theorem GroupMoves.warnMissing (reached : GroupMoves lower input effect start state)
    (group : String) : GroupMoves lower input effect start (warnMissingGroup group state) := by
  unfold warnMissingGroup
  dsimp only
  split
  · exact reached
  · exact ⟨reached.moves.tail (.note ⟨rfl, rfl, rfl, rfl, rfl, rfl⟩), reached.centers⟩

theorem GroupMoves.trainee (reached : GroupMoves lower input effect start state)
    (listed : name ∈ seatsAt effect.lockedPeople group) :
    GroupMoves lower input effect start (input.reserveTrainee lower group state name) := by
  unfold reserveTrainee
  dsimp only
  split
  · exact reached
  · rename_i free
    split
    · refine ⟨reached.moves.tail (.note ⟨?_, ?_, rfl, rfl, rfl, rfl⟩), reached.centers⟩
      · exact Board.assignments_warnOnce _ _
      · exact Board.origins_warnOnce _ _
    · rename_i center chosen
      obtain ⟨inGroup, room⟩ := List.mem_filter.mp (mem_of_choosePrioritizedCenter chosen)
      refine ⟨reached.moves.tail (.trainee listed inGroup (not_or.mp free).2
        (of_decide_eq_true room)), fun other place found => ?_⟩
      rw [Dictionary.get_alter] at found
      split at found
      · rename_i same
        obtain rfl := Option.some.inj found
        exact same ▸ inGroup
      · exact reached.centers other place found

theorem GroupMoves.trainer (reached : GroupMoves lower input effect start state)
    (listed : name ∈ seatsAt effect.temporaryExtraPeople group) :
    GroupMoves lower input effect start (input.reserveTrainer lower group state name) := by
  unfold reserveTrainer
  dsimp only
  split
  · exact reached
  · rename_i free
    split
    · exact reached
    · rename_i center chosen
      split
      · exact reached
      · rename_i room
        have inGroup : center ∈ input.groupCenters group := by
          obtain paired | ⟨-, other⟩ := Option.or_eq_some_iff.mp chosen
          · exact reached.centers group center paired
          · exact mem_of_choosePrioritizedCenter other
        exact ⟨reached.moves.tail (.trainer listed inGroup (not_or.mp free).2
          (not_le.mp room)), reached.centers⟩

theorem GroupMoves.reserveGroups (reached : GroupMoves lower input effect start state)
    {people : Assignments} {reserve : String → GroupReservations → String → GroupReservations}
    (each : ∀ {state group name}, GroupMoves lower input effect start state →
      name ∈ seatsAt people group → GroupMoves lower input effect start (reserve group state name)) :
    GroupMoves lower input effect start (input.reserveGroups people reserve state) := by
  refine List.foldlRecOn (motive := GroupMoves lower input effect start) _ _ reached
    fun middle reached entry member => ?_
  split
  · exact reached.warnMissing entry.1
  · refine List.foldlRecOn (motive := GroupMoves lower input effect start) _ _ reached
      fun middle reached name listed => each reached ?_
    rw [seatsAt, Dictionary.get_eq_some_iff.mpr member]
    exact listed

/-- **A training block takes only the listed steps.** -/
theorem applyEffect_moves (state : Reservations) :
    ReflTransGen (Move lower input effect) state (input.applyEffect lower state effect) := by
  let noted : Reservations := { state with
    board := { state.board with warnings := state.board.warnings ++ effect.warnings }
    exactBlockPeople := state.exactBlockPeople ++ effect.exactPeople }
  have start : Move lower input effect state noted := .note ⟨rfl, rfl, rfl, rfl, rfl, rfl⟩
  have exact : GroupMoves lower input effect state
      { reservations := input.reserveAllExact lower effect noted } :=
    ⟨.head start (reserveAllExact_moves noted), fun _ _ found => nomatch found⟩
  have trainees : GroupMoves lower input effect state (input.reserveGroups effect.lockedPeople
      (input.reserveTrainee lower) _) :=
    exact.reserveGroups fun reached listed => reached.trainee listed
  have trainers : GroupMoves lower input effect state
      (input.reserveGroups effect.temporaryExtraPeople (input.reserveTrainer lower) _) :=
    trainees.reserveGroups fun reached listed => reached.trainer listed
  exact trainers.moves

end Inputs

end PlantManager.Rotation

import PlantManager.Rotation.Board

/-! # Seats reserved for training blocks

`Rotation.Inputs.applyEffect` reserves the seats that a training block asks for:
first at exact work centers, then in the groups of older blocks.
`Rotation.Inputs.reservations` applies all blocks to the board with the locks.
-/

namespace PlantManager.Rotation

open Mapping Ranking Solver Roster

/-- The board with what the training blocks reserved. -/
structure Reservations where
  board : Board
  protectedBlockPeople : List String := []
  exactBlockPeople : List String := []
  /-- Groups and centers with a trainee. -/
  blockCenters : List (String × String) := []
  temporaryTrainingExtras : Assignments := ∅
  trainingTrainees : Assignments := ∅

def trainingBlockReason : Reason := ⟨"training block", "training_block"⟩

def trainingPairReason : Reason := ⟨"training pair", "training_block"⟩

/-- The names without surrounding blanks, blank ones left out. -/
def cleanNames (names : List String) : List String :=
  (names.map stripped).filter fun name => name ≠ ""

namespace Reservations

variable (state : Reservations)

def warnExactCenter (center message : String) : Reservations :=
  { state with board := state.board.warnOnce s!"Training block for {center} {message}" }

def placeTrainee (group center name : String) : Reservations :=
  { state with
    board := state.board.place center name (.generated trainingBlockReason)
    protectedBlockPeople := name :: state.protectedBlockPeople
    blockCenters := (group, center) :: state.blockCenters }

def placeTrainer (center name : String) : Reservations :=
  { state with board := state.board.place center name (.generated trainingPairReason) }

/-- Place the trainees of an exact reservation, and record them for their center. -/
def placeTrainees (group center : String) (names : List String) : Reservations :=
  let placed := names.foldl (fun state name => state.placeTrainee group center name) state
  if names = [] then placed
  else { placed with
    trainingTrainees := placed.trainingTrainees.alter center fun _ => names.eraseDups }

/-- Place the trainers of an exact reservation who are not seated yet, and record them for
their center. -/
def placeTrainers (center : String) (names : List String) : Reservations :=
  let placed := names.foldl (fun state name =>
    if name ∈ state.board.assigned then state else state.placeTrainer center name) state
  if names = [] then placed
  else { placed with
    temporaryTrainingExtras := placed.temporaryTrainingExtras.alter center fun _ => names }

/-- The trainees with a seat at a center. -/
def blockTraineesAt (center : String) : List String :=
  if center ∈ state.blockCenters.map Prod.snd then
    (state.board.seats center).filter fun name => name ∈ state.protectedBlockPeople
  else []

end Reservations

namespace BlockEffect

variable (effect : BlockEffect)

def exactCenters : List String :=
  (effect.lockedWorkCenters.keys ++ effect.temporaryExtraWorkCenters.keys).eraseDups

/-- Everyone whom the block sends to an exact work center. -/
def exactPeople : List String :=
  cleanNames (effect.lockedWorkCenters.values.flatten ++
    effect.temporaryExtraWorkCenters.values.flatten)

end BlockEffect

namespace Inputs

variable (lower : String → String) (input : Inputs)

/-! ## Exact work centers -/

/-- Reserve the seats at one exact work center, or none of them. -/
def reserveExact (effect : BlockEffect) (state : Reservations) (center : String) : Reservations :=
  match input.centerGroup lower center with
  | none => state.warnExactCenter center "has no schedulable work center."
  | some group =>
      let lockedNames := cleanNames (seatsAt effect.lockedWorkCenters center)
      let extraNames := cleanNames (seatsAt effect.temporaryExtraWorkCenters center)
      let directNames := lockedNames ++ extraNames
      match directNames.find? fun name => name ∉ input.availableNames lower with
      | some name =>
          state.warnExactCenter center s!"did not reserve {name}; they are unavailable today."
      | none =>
          match directNames.find? fun name => name ∈ state.board.assigned with
          | some name =>
              state.warnExactCenter center
                s!"did not reserve {name}; an existing assignment owns them."
          | none =>
              if input.effectiveCapacity center <
                  (state.board.seats center).length + lockedNames.length then
                state.warnExactCenter center
                  "could not reserve an open work center slot for the trainee."
              else
                (state.placeTrainees group center lockedNames).placeTrainers center extraNames

/-- Reserve at all exact work centers of a block, unless one of its people has a manual lock. -/
def reserveAllExact (effect : BlockEffect) (state : Reservations) : Reservations :=
  let manualExactPeople := effect.exactPeople.filter fun name =>
    state.board.origins.values.any fun people => decide (people.get name = some .manual)
  if manualExactPeople = [] then
    effect.exactCenters.foldl (input.reserveExact lower effect) state
  else
    let owners := ", ".intercalate (sortBy lower manualExactPeople.dedup)
    effect.exactCenters.foldl (fun state center => state.warnExactCenter center
      s!"was not applied because an existing manual assignment owns {owners}.") state

end Inputs

/-! ## Groups -/

/-- The reservations while the groups of one block are reserved. -/
structure GroupReservations where
  reservations : Reservations
  blockCenterByGroup : Dictionary String String := ∅
  warnedGroups : List String := []

namespace Inputs

variable (lower : String → String) (input : Inputs)

/-- Centers that lack most come first. -/
def centerPriority (board : Board) (center : String) : ℤ ×ₗ ℤ ×ₗ String :=
  let deficit := max 0 (input.effectiveMinimum center - (board.seats center).length)
  toLex (if deficit = 0 then 1 else 0, toLex (-deficit, lower center))

/-- Of the centers that lack most, the one where the person worked least. -/
def choosePrioritizedCenter (board : Board) (name group : String) (centers : List String) :
    Option String :=
  let lacking := fun center =>
    let priority := ofLex (input.centerPriority lower board center)
    (priority.1, (ofLex priority.2).1)
  let ordered := sortBy (input.centerPriority lower board) centers
  ordered.head?.bind fun first =>
    chooseCenter lower name group (ordered.filter fun center => lacking center = lacking first)
      input.history

def groupCenters (group : String) : List String :=
  ((input.groupLocations.get group).getD []).filter fun center => center ∈ input.allowedCenters

def warnMissingGroup (group : String) (state : GroupReservations) : GroupReservations :=
  if group ∈ state.warnedGroups then state
  else
    let warning := s!"Training block for {group} has no schedulable work centers."
    { state with
      warnedGroups := group :: state.warnedGroups
      reservations := { state.reservations with
        board := state.reservations.board.warn warning } }

/-- Reserve a seat for a trainee where the group has one open. -/
def reserveTrainee (group : String) (state : GroupReservations) (name : String) :
    GroupReservations :=
  let board := state.reservations.board
  if stripped name = "" ∨ name ∈ board.assigned then state
  else
    let openCenters := (input.groupCenters group).filter fun center =>
      (board.seats center).length < input.effectiveCapacity center
    match input.choosePrioritizedCenter lower board name group openCenters with
    | none =>
        let warning := s!"Training block for {group} could not reserve an open work center."
        { state with reservations := { state.reservations with board := board.warnOnce warning } }
    | some center =>
        let placed := state.reservations.placeTrainee group center name
        { state with
          reservations := { placed with trainingTrainees :=
            placed.trainingTrainees.alter center fun stored =>
              let prior := stored.getD []
              if name ∈ prior then prior else prior ++ [name] }
          blockCenterByGroup := state.blockCenterByGroup.alter group fun _ => center }

/-- Seat a trainer beside the trainee of the group, within the capacity. -/
def reserveTrainer (group : String) (state : GroupReservations) (name : String) :
    GroupReservations :=
  let board := state.reservations.board
  if stripped name = "" ∨ name ∈ board.assigned then state
  else
    match (state.blockCenterByGroup.get group).or
        (input.choosePrioritizedCenter lower board name group (input.groupCenters group)) with
    | none => state
    | some center =>
        if input.effectiveCapacity center ≤ (board.seats center).length then state
        else { state with reservations := state.reservations.placeTrainer center name }

/-- Reserve for the people of each group that has a center. -/
def reserveGroups (people : Assignments)
    (reserve : String → GroupReservations → String → GroupReservations)
    (state : GroupReservations) : GroupReservations :=
  people.entries.foldl (fun state entry =>
    if input.groupCenters entry.1 = [] then warnMissingGroup entry.1 state
    else entry.2.foldl (reserve entry.1) state) state

/-! ## All blocks -/

def applyEffect (state : Reservations) (effect : BlockEffect) : Reservations :=
  let warned := { state with
    board := { state.board with warnings := state.board.warnings ++ effect.warnings }
    exactBlockPeople := state.exactBlockPeople ++ effect.exactPeople }
  let exact := input.reserveAllExact lower effect warned
  let trainees := input.reserveGroups effect.lockedPeople (input.reserveTrainee lower)
    { reservations := exact }
  (input.reserveGroups effect.temporaryExtraPeople (input.reserveTrainer lower)
    trainees).reservations

/-- The board with the base, the locks and the training blocks. -/
def reservations : Reservations :=
  input.blockEffects.foldl (input.applyEffect lower) { board := input.lockedBoard lower }

/-- The available people who are still to be placed. -/
def solverPeople : List String :=
  (input.availableNames lower).filter fun name =>
    name ∉ (input.reservations lower).board.assigned ∧
      name ∉ (input.reservations lower).exactBlockPeople

end Inputs

end PlantManager.Rotation

import PlantManager.Rotation.BlockMoves

/-! # What the reservations add

Locks and training blocks only add names to the copy of the base.
`Rotation.Inputs.Added` says what holds of the added names,
`Rotation.Inputs.Added.place` that placing somebody keeps it, and
`Rotation.Inputs.reservations_added` that it holds once all blocks are applied.
-/

namespace PlantManager.Rotation

open Mapping Ranking Solver Roster

/-! ## The copy of the base -/

theorem seatsAt_retain (center : String) (assignments : Assignments) (rawName other : String) :
    seatsAt (retain center assignments rawName) other = seatsAt assignments other ∨
      other = center ∧ stripped rawName ∉ seatedNames assignments ∧
        seatsAt (retain center assignments rawName) other =
          seatsAt assignments other ++ [stripped rawName] := by
  unfold retain
  dsimp only
  split
  · exact .inl rfl
  · rename_i notKept
    rw [seatsAt_seat]
    by_cases here : other = center
    · rw [if_pos here, here]
      exact .inr ⟨rfl, fun seated => notKept (.inr seated), rfl⟩
    · rw [if_neg here]
      exact .inl rfl

variable {assignments : Assignments} {center name : String}

theorem mem_seatedNames_retain {rawName : String}
    (member : name ∈ seatedNames (retain center assignments rawName)) :
    name = stripped rawName ∨ name ∈ seatedNames assignments := by
  unfold retain at member
  dsimp only at member
  split at member
  · exact .inr member
  · exact mem_seatedNames_seat.mp member

variable {other : String} {names : List String} {entry : String × List String}
  {entries : List (String × List String)}

theorem mem_seatsAt_retain (rawName : String) (member : name ∈ seatsAt assignments other) :
    name ∈ seatsAt (retain center assignments rawName) other := by
  obtain same | ⟨-, -, grown⟩ := seatsAt_retain center assignments rawName other
  · rwa [same]
  · rw [grown]
    exact List.mem_append_left _ member

theorem mem_seatsAt_foldl_retain (names : List String) (member : name ∈ seatsAt assignments other) :
    name ∈ seatsAt (names.foldl (retain center) assignments) other := by
  induction names generalizing assignments with
  | nil => exact member
  | cons rawName rest ih => exact ih (mem_seatsAt_retain rawName member)

/-- A name that is not seated yet takes the first seat it is listed at. -/
theorem mem_seatsAt_foldl_retain_of_mem (named : name ≠ "") (listed : name ∈ names.map stripped)
    (unseated : name ∉ seatedNames assignments) :
    name ∈ seatsAt (names.foldl (retain center) assignments) center := by
  induction names generalizing assignments with
  | nil => cases listed
  | cons rawName rest ih =>
      by_cases first : stripped rawName = name
      · refine mem_seatsAt_foldl_retain rest ?_
        have kept : retain center assignments rawName = seat assignments center name := by
          subst first
          exact if_neg (not_or.mpr ⟨named, unseated⟩)
        rw [kept, seatsAt_seat, if_pos rfl]
        simp
      · refine ih (List.mem_of_ne_of_mem (Ne.symm first) listed) fun seated => ?_
        exact (mem_seatedNames_retain seated).elim (fun same => first same.symm) unseated

theorem mem_seatedNames_foldl_retain
    (seated : name ∈ seatedNames (names.foldl (retain center) assignments)) :
    name ∈ names.map stripped ∨ name ∈ seatedNames assignments := by
  induction names generalizing assignments with
  | nil => exact .inr seated
  | cons rawName rest ih =>
      obtain later | earlier := ih seated
      · exact .inl (List.mem_cons_of_mem _ later)
      · refine (mem_seatedNames_retain earlier).imp_left fun same => ?_
        rw [same, List.map_cons]
        exact List.mem_cons_self

theorem seatsAt_foldl_retain_of_ne (different : other ≠ center) (names : List String)
    (assignments : Assignments) :
    seatsAt (names.foldl (retain center) assignments) other = seatsAt assignments other := by
  induction names generalizing assignments with
  | nil => rfl
  | cons rawName rest ih =>
      rw [List.foldl_cons, ih]
      obtain same | ⟨here, -⟩ := seatsAt_retain center assignments rawName other
      · exact same
      · exact absurd here different

/-- The names that an entry lists, as they are copied. -/
def copiedNames (allowed : List String) (entry : String × List String) : List String :=
  if entry.1 ∈ allowed then entry.2.map stripped else entry.2

variable {allowed : List String}

theorem seatsAt_copyCenter_of_ne (different : center ≠ entry.1) :
    seatsAt (copyCenter allowed assignments entry) center = seatsAt assignments center := by
  unfold copyCenter
  split
  · exact seatsAt_foldl_retain_of_ne different _ _
  · rw [seatsAt, Dictionary.get_alter, if_neg different]
    rfl

theorem seatsAt_foldl_copyCenter_of_notMem (absent : center ∉ entries.map Prod.fst)
    (assignments : Assignments) :
    seatsAt (entries.foldl (copyCenter allowed) assignments) center =
      seatsAt assignments center := by
  induction entries generalizing assignments with
  | nil => rfl
  | cons entry rest ih =>
      obtain ⟨different, later⟩ := not_or.mp (fun either => absent (List.mem_cons.mpr either))
      rw [List.foldl_cons, ih later, seatsAt_copyCenter_of_ne different]

theorem mem_seatedNames_copyCenter
    (seated : name ∈ seatedNames (copyCenter allowed assignments entry)) :
    name ∈ copiedNames allowed entry ∨ name ∈ seatedNames assignments := by
  unfold copyCenter at seated
  unfold copiedNames
  split at seated
  · rename_i runs
    rw [if_pos runs]
    exact mem_seatedNames_foldl_retain seated
  · rename_i rests
    rw [if_neg rests]
    obtain ⟨center, member⟩ := mem_seatedNames.mp seated
    rw [seatsAt, Dictionary.get_alter] at member
    split at member
    · exact .inl (List.mem_filter.mp member).1
    · exact .inr (mem_seatedNames.mpr ⟨center, member⟩)

/-- A center that does not run is copied, without blank names. -/
theorem seatsAt_copyBase_of_notMem {base : Assignments} (rests : center ∉ allowed)
    (listed : (center, names) ∈ base.entries) :
    seatsAt (copyBase allowed base) center = names.filter fun name => stripped name ≠ "" := by
  obtain ⟨before, after, split⟩ := List.append_of_mem listed
  have distinct := base.distinct
  rw [split, List.map_append, List.nodup_append] at distinct
  have absentLater := (List.nodup_cons.mp distinct.2.1).1
  rw [copyBase, split, List.foldl_append, List.foldl_cons,
    seatsAt_foldl_copyCenter_of_notMem absentLater, copyCenter, if_neg rests, seatsAt,
    Dictionary.get_alter, if_pos rfl]
  rfl

/-- The seats of the base in order, with the names as they are copied. -/
def baseSeats (allowed : List String) (entries : List (String × List String)) :
    List (String × String) :=
  entries.flatMap fun entry => (copiedNames allowed entry).map (Prod.mk entry.1)

/-- A name keeps its first seat, when that is at a center that runs. -/
theorem mem_seatsAt_of_first (distinct : (entries.map Prod.fst).Nodup) (named : name ≠ "")
    (runs : center ∈ allowed)
    (first : (baseSeats allowed entries).find? (fun seat => seat.2 = name) = some (center, name))
    (unseated : name ∉ seatedNames assignments) :
    name ∈ seatsAt (entries.foldl (copyCenter allowed) assignments) center := by
  induction entries generalizing assignments with
  | nil => cases first
  | cons entry rest ih =>
      obtain ⟨absent, later⟩ := List.nodup_cons.mp distinct
      rw [baseSeats, List.flatMap_cons, List.find?_append] at first
      rw [List.foldl_cons]
      by_cases here : name ∈ copiedNames allowed entry
      · have found : ((copiedNames allowed entry).map (Prod.mk entry.1)).find?
            (fun seat => seat.2 = name) = some (entry.1, name) := by
          rw [List.find?_map, Option.map_eq_some_iff]
          refine ⟨name, List.find?_eq_some_iff_append.mpr ⟨decide_eq_true rfl, ?_⟩, rfl⟩
          obtain ⟨before, after, split, notBefore⟩ := List.eq_append_cons_of_mem here
          refine ⟨before, after, split, fun other inside => ?_⟩
          have different : other ≠ name := fun same => notBefore (same ▸ inside)
          simpa using different
        rw [found, Option.some_or] at first
        obtain rfl := congrArg Prod.fst (Option.some.inj first)
        rw [seatsAt_foldl_copyCenter_of_notMem absent, copyCenter, if_pos runs]
        rw [copiedNames, if_pos runs] at here
        exact mem_seatsAt_foldl_retain_of_mem named here unseated
      · have none : ((copiedNames allowed entry).map (Prod.mk entry.1)).find?
            (fun seat => seat.2 = name) = none := by
          refine List.find?_eq_none.mpr fun seat member same => here ?_
          obtain ⟨other, inside, rfl⟩ := List.mem_map.mp member
          exact of_decide_eq_true same ▸ inside
        rw [none, Option.none_or] at first
        refine ih later first fun seated => ?_
        exact (mem_seatedNames_copyCenter seated).elim here unseated

/-! ## Names that were added -/

namespace Inputs

section Statements

variable (lower : String → String) (input : Inputs)

/-- The copy of the base that the board starts from. -/
def base : Assignments := copyBase input.allowedCenters input.baseAssignments

/-- Available and qualified at a center. -/
structure Eligible (center name : String) : Prop where
  available : name ∈ input.availableNames lower
  level : ∃ group, input.centerGroup lower center = some group ∧ 1 ≤ input.levelOf name group

/-- Placed by a training block. -/
def FromTraining (board : Board) (center name : String) : Prop :=
  ∃ reason, board.origin center name = some (.generated reason) ∧ reason.code = "training_block"

/-- A training block lists somebody more than once for one exact work center. -/
def Repeated (center name : String) : Prop :=
  ∃ effect ∈ input.blockEffects,
    2 ≤ (cleanNames (seatsAt effect.lockedWorkCenters center)).count name

/-- The names added to the base while seats are reserved. -/
structure Added (board : Board) (added : String → List String) : Prop where
  seats : ∀ center, board.seats center = seatsAt input.base center ++ added center
  runs : ∀ center, ∀ name ∈ added center, center ∈ input.allowedCenters
  fresh : ∀ center, ∀ name ∈ added center, name ∉ seatedNames input.base
  apart : ∀ center other name, name ∈ added center → name ∈ added other → center = other
  once : ∀ center name, 2 ≤ (added center).count name → input.Repeated center name
  placed : ∀ center, ∀ name ∈ added center,
    Eligible lower input center name ∨ FromTraining board center name
  training : ∀ center name reason, board.origin center name = some (.generated reason) →
    reason.code = "training_block"

end Statements

variable {center name : String} {reason : Reason}

theorem mem_update_append {added : String → List String} {other place : String} :
    other ∈ Function.update added center (added center ++ [name]) place ↔
      other ∈ added place ∨ place = center ∧ other = name := by
  by_cases here : place = center
  · subst here
    simp
  · simp [here]

variable {lower : String → String} {input : Inputs} {board : Board}
  {added : String → List String}

section

variable (kept : Added lower input board added)
include kept

theorem Added.assigned (member : name ∈ added center) : name ∈ board.assigned :=
  mem_seatedNames.mpr ⟨center, by
    change name ∈ board.seats center
    rw [kept.seats]
    exact List.mem_append_right _ member⟩

theorem Added.assigned_base (seated : name ∈ seatedNames input.base) : name ∈ board.assigned := by
  obtain ⟨center, member⟩ := mem_seatedNames.mp seated
  refine mem_seatedNames.mpr ⟨center, ?_⟩
  change name ∈ board.seats center
  rw [kept.seats]
  exact List.mem_append_left _ member

/-- Warnings change nothing about who was added. -/
theorem Added.congr {other : Board} (assignments : other.assignments = board.assignments)
    (origins : other.origins = board.origins) : Added lower input other added := by
  obtain ⟨assignments, origins', warnings⟩ := other
  cases assignments
  cases origins
  exact ⟨kept.seats, kept.runs, kept.fresh, kept.apart, kept.once, kept.placed, kept.training⟩

/-- **Placing somebody keeps what holds of the added names**, when the person is new, or
listed more than once by a training block. -/
theorem Added.place {origin : Origin} (runs : center ∈ input.allowedCenters)
    (new : name ∉ board.assigned ∨ name ∈ added center ∧ input.Repeated center name)
    (fits : origin = .manual ∧ Eligible lower input center name ∨
      ∃ reason, origin = .generated reason ∧ reason.code = "training_block") :
    Added lower input (board.place center name origin)
      (Function.update added center (added center ++ [name])) where
  seats := by
    intro place
    rw [Board.seats_place, kept.seats, kept.seats]
    by_cases here : place = center
    · rw [if_pos here, here, Function.update_self, List.append_assoc]
    · rw [if_neg here, Function.update_of_ne here]
  runs := by
    intro place other member
    obtain old | ⟨rfl, rfl⟩ := mem_update_append.mp member
    · exact kept.runs place other old
    · exact runs
  fresh := by
    intro place other member
    obtain old | ⟨rfl, rfl⟩ := mem_update_append.mp member
    · exact kept.fresh place other old
    · obtain unassigned | ⟨old, -⟩ := new
      · exact fun seated => unassigned (kept.assigned_base seated)
      · exact kept.fresh place other old
  apart := by
    have nowhere : ∀ place, name ∈ added place → place = center := by
      intro place old
      obtain unassigned | ⟨here, -⟩ := new
      · exact absurd (kept.assigned old) unassigned
      · exact kept.apart place center name old here
    intro place other someone member again
    obtain old | ⟨rfl, rfl⟩ := mem_update_append.mp member <;>
      obtain also | ⟨rfl, same⟩ := mem_update_append.mp again
    · exact kept.apart place other someone old also
    · exact nowhere place (same ▸ old)
    · exact (nowhere other also).symm
    · rfl
  once := by
    intro place other twice
    by_cases here : place = center
    · subst here
      rw [Function.update_self, List.count_append] at twice
      by_cases same : other = name
      · subst same
        obtain unassigned | ⟨-, repeated⟩ := new
        · have none : (added place).count other = 0 :=
            List.count_eq_zero.mpr fun old => unassigned (kept.assigned old)
          rw [none, List.count_singleton_self] at twice
          omega
        · exact repeated
      · rw [List.count_singleton, if_neg (by simpa using Ne.symm same)] at twice
        exact kept.once place other twice
    · rw [Function.update_of_ne here] at twice
      exact kept.once place other twice
  placed := by
    intro place other member
    by_cases isNew : place = center ∧ other = name
    · obtain ⟨rfl, rfl⟩ := isNew
      obtain ⟨rfl, eligible⟩ | ⟨reason, rfl, code⟩ := fits
      · exact .inl eligible
      · refine .inr ⟨reason, ?_, code⟩
        rw [Board.origin_place, if_pos ⟨rfl, rfl⟩]
    · have old := (mem_update_append.mp member).resolve_right isNew
      refine (kept.placed place other old).imp_right fun ⟨reason, known, code⟩ => ?_
      refine ⟨reason, ?_, code⟩
      rw [Board.origin_place, if_neg isNew, known]
  training := by
    intro place other reason known
    rw [Board.origin_place] at known
    split at known
    · obtain ⟨rfl, -⟩ | ⟨given, rfl, code⟩ := fits
      · cases known
      · cases known
        exact code
    · exact kept.training place other reason known

end

/-! ## Locks -/

/-- While locks are kept, nothing is generated. -/
structure OnlyLocks (lower : String → String) (input : Inputs) (board : Board)
    (added : String → List String) : Prop where
  kept : Added lower input board added
  manual : ∀ center name origin, board.origin center name = some origin → origin = .manual
  within : ∀ center, ((board.seats center).length : ℤ) ≤
    max (input.effectiveCapacity center) (seatsAt input.base center).length

theorem OnlyLocks.congr (locks : OnlyLocks lower input board added) {other : Board}
    (assignments : other.assignments = board.assignments) (origins : other.origins = board.origins) :
    OnlyLocks lower input other added where
  kept := locks.kept.congr assignments origins
  manual := by
    intro center name
    rw [Board.origin, origins]
    exact locks.manual center name
  within := by
    intro center
    rw [Board.seats, assignments]
    exact locks.within center

theorem OnlyLocks.setOrigin (locks : OnlyLocks lower input board added) (center name : String) :
    OnlyLocks lower input (board.setOrigin center name .manual) added where
  kept := {
    seats := locks.kept.seats
    runs := locks.kept.runs
    fresh := locks.kept.fresh
    apart := locks.kept.apart
    once := locks.kept.once
    placed := by
      intro place other member
      obtain eligible | ⟨reason, known, -⟩ := locks.kept.placed place other member
      · exact .inl eligible
      · cases locks.manual place other _ known
    training := by
      intro place other reason known
      rw [Board.origin_setOrigin] at known
      split at known
      · cases known
      · exact locks.kept.training place other reason known }
  manual := by
    intro place other origin known
    rw [Board.origin_setOrigin] at known
    split at known
    · exact (Option.some.inj known).symm
    · exact locks.manual place other origin known
  within := locks.within

theorem OnlyLocks.lock (locks : OnlyLocks lower input board added) (center rawName : String) :
    ∃ more, OnlyLocks lower input (input.lock lower center board rawName) more := by
  unfold Inputs.lock
  dsimp only
  split
  · exact ⟨added, locks⟩
  split
  · exact ⟨added, locks.setOrigin center _⟩
  cases inGroup : input.centerGroup lower center with
  | none => exact ⟨added, locks.congr rfl rfl⟩
  | some group =>
      dsimp only
      split
      · exact ⟨added, locks.congr rfl rfl⟩
      · rename_i safe
        obtain ⟨unassigned, available, level, open'⟩ :
            stripped rawName ∉ board.assigned ∧ stripped rawName ∈ input.availableNames lower ∧
              1 ≤ input.levelOf (stripped rawName) group ∧
              ((board.seats center).length : ℤ) < input.effectiveCapacity center := by
          push Not at safe
          exact safe
        refine ⟨_, locks.kept.place (mem_allowedCenters_of_centerGroup inGroup) (.inl unassigned)
          (.inl ⟨rfl, available, group, inGroup, level⟩), ?_, ?_⟩
        · intro place other origin known
          rw [Board.origin_place] at known
          split at known
          · exact (Option.some.inj known).symm
          · exact locks.manual place other origin known
        · intro place
          rw [Board.seats_place]
          split
          · rename_i here
            rw [List.length_append, List.length_singleton, here]
            omega
          · exact locks.within place

theorem lockedBoard_onlyLocks (lower : String → String) (input : Inputs) :
    ∃ added, OnlyLocks lower input (input.lockedBoard lower) added := by
  have start : OnlyLocks lower input { assignments := input.base } fun _ => [] :=
    { kept := {
        seats := fun center => (List.append_nil _).symm
        runs := fun _ _ member => absurd member List.not_mem_nil
        fresh := fun _ _ member => absurd member List.not_mem_nil
        apart := fun _ _ _ member => absurd member List.not_mem_nil
        once := fun _ _ twice => absurd twice (by simp)
        placed := fun _ _ member => absurd member List.not_mem_nil
        training := fun _ _ _ known => by cases known }
      manual := fun _ _ _ known => by cases known
      within := fun _ => le_max_right _ _ }
  let holds := fun board : Board => ∃ added, OnlyLocks lower input board added
  refine List.foldlRecOn (motive := holds) _ _ ⟨_, start⟩ fun board locks entry _ => ?_
  refine List.foldlRecOn (motive := holds) _ _ locks fun board locks rawName _ => ?_
  obtain ⟨added, locks⟩ := locks
  exact locks.lock entry.1 rawName

/-! ## Training blocks -/

theorem FromTraining.place (placed : FromTraining board center name)
    (code : reason.code = "training_block") (place other : String) :
    FromTraining (board.place place other (.generated reason)) center name := by
  obtain ⟨given, known, givenCode⟩ := placed
  by_cases same : center = place ∧ name = other
  · exact ⟨reason, by rw [Board.origin_place, if_pos same], code⟩
  · exact ⟨given, by rw [Board.origin_place, if_neg same, known], givenCode⟩

theorem fromTraining_place (board : Board) (center name : String)
    (code : reason.code = "training_block") :
    FromTraining (board.place center name (.generated reason)) center name :=
  ⟨reason, by rw [Board.origin_place, if_pos ⟨rfl, rfl⟩], code⟩

/-- What seating people for training at a center changes. -/
structure SeatedAt (board next : Board) (center : String) (names : List String) : Prop where
  here : next.seats center = board.seats center ++ names
  elsewhere : ∀ other, other ≠ center → next.seats other = board.seats other
  training : ∀ name ∈ names, FromTraining next center name
  still : ∀ {place other}, FromTraining board place other → FromTraining next place other

theorem SeatedAt.refl (board : Board) (center : String) : SeatedAt board board center [] where
  here := (List.append_nil _).symm
  elsewhere := fun _ _ => rfl
  training := fun _ member => absurd member List.not_mem_nil
  still := id

theorem SeatedAt.place {next : Board} {names : List String}
    (seated : SeatedAt board next center names) (name : String)
    (code : reason.code = "training_block") :
    SeatedAt board (next.place center name (.generated reason)) center (names ++ [name]) where
  here := by rw [Board.seats_place, if_pos rfl, seated.here, List.append_assoc]
  elsewhere := by
    intro other different
    rw [Board.seats_place, if_neg different, seated.elsewhere other different]
  training := by
    intro other member
    rcases List.mem_append.mp member with old | new
    · exact (seated.training other old).place code center name
    · obtain rfl := List.mem_singleton.mp new
      exact fromTraining_place next center other code
  still := fun placed => (seated.still placed).place code center name

theorem SeatedAt.trans {middle next : Board} {first second : List String}
    (before : SeatedAt board middle center first) (after : SeatedAt middle next center second) :
    SeatedAt board next center (first ++ second) where
  here := by rw [after.here, before.here, List.append_assoc]
  elsewhere := fun other different =>
    (after.elsewhere other different).trans (before.elsewhere other different)
  training := by
    intro name member
    rcases List.mem_append.mp member with old | new
    · exact after.still (before.training name old)
    · exact after.training name new
  still := fun placed => after.still (before.still placed)

/-- Seat people for training, one after another. -/
def placeAll (center : String) (reason : Reason) (names : List String) (board : Board) : Board :=
  names.foldl (fun board name => board.place center name (.generated reason)) board

theorem seatedAt_placeAll (center : String) (code : reason.code = "training_block")
    (names : List String) (board : Board) :
    SeatedAt board (placeAll center reason names board) center names := by
  induction names using List.reverseRecOn with
  | nil => exact .refl board center
  | append_singleton names name ih =>
      rw [placeAll, List.foldl_append]
      exact ih.place name code

theorem placeTrainees_spec (group center : String) (names : List String) (state : Reservations) :
    (state.placeTrainees group center names).board =
        placeAll center trainingBlockReason names state.board ∧
      (state.placeTrainees group center names).temporaryTrainingExtras =
        state.temporaryTrainingExtras ∧
      (state.placeTrainees group center names).trainingTrainees =
        if names = [] then state.trainingTrainees
        else state.trainingTrainees.alter center fun _ => names.eraseDups := by
  have fold : ∀ state : Reservations,
      let placed := names.foldl (fun state name => state.placeTrainee group center name) state
      placed.board = placeAll center trainingBlockReason names state.board ∧
        placed.temporaryTrainingExtras = state.temporaryTrainingExtras ∧
        placed.trainingTrainees = state.trainingTrainees := by
    induction names with
    | nil => exact fun state => ⟨rfl, rfl, rfl⟩
    | cons name rest ih => exact fun state => ih (state.placeTrainee group center name)
  obtain ⟨board, extras, trainees⟩ := fold state
  unfold Reservations.placeTrainees
  dsimp only
  split
  · exact ⟨board, extras, trainees⟩
  · exact ⟨board, extras, congrArg (fun stored : Assignments => stored.alter center _) trainees⟩

theorem placeTrainers_spec (center : String) (names : List String) (state : Reservations) :
    (∃ paired : List String, paired ⊆ names ∧ paired.Nodup ∧
        (∀ name ∈ paired, name ∉ state.board.assigned) ∧
        (∀ name ∈ names, name ∈ paired ∨ name ∈ state.board.assigned) ∧
        (state.placeTrainers center names).board =
          placeAll center trainingPairReason paired state.board) ∧
      (state.placeTrainers center names).temporaryTrainingExtras =
        (if names = [] then state.temporaryTrainingExtras
        else state.temporaryTrainingExtras.alter center fun _ => names) ∧
      (state.placeTrainers center names).trainingTrainees = state.trainingTrainees := by
  have fold : ∀ state : Reservations,
      let placed := names.foldl (fun state name =>
        if name ∈ state.board.assigned then state else state.placeTrainer center name) state
      (∃ paired : List String, paired ⊆ names ∧ paired.Nodup ∧
          (∀ name ∈ paired, name ∉ state.board.assigned) ∧
          (∀ name ∈ names, name ∈ paired ∨ name ∈ state.board.assigned) ∧
          placed.board = placeAll center trainingPairReason paired state.board) ∧
        placed.temporaryTrainingExtras = state.temporaryTrainingExtras ∧
        placed.trainingTrainees = state.trainingTrainees := by
    induction names with
    | nil => exact fun state => ⟨⟨[], by simp, .nil, by simp, by simp, rfl⟩, rfl, rfl⟩
    | cons name rest ih =>
        intro state
        rw [List.foldl_cons]
        split
        · rename_i seated
          obtain ⟨⟨paired, sub, distinct, free, all, board⟩, extras, trainees⟩ := ih state
          exact ⟨⟨paired, fun other member => List.mem_cons_of_mem _ (sub member), distinct, free,
            List.forall_mem_cons.mpr ⟨.inr seated, all⟩, board⟩, extras, trainees⟩
        · rename_i unassigned
          obtain ⟨⟨paired, sub, distinct, free, all, board⟩, extras, trainees⟩ :=
            ih (state.placeTrainer center name)
          have later : ∀ other ∈ paired, other ≠ name ∧ other ∉ state.board.assigned :=
            fun other member => not_or.mp (mt mem_seatedNames_seat.mpr (free other member))
          refine ⟨⟨name :: paired, List.cons_subset_cons name sub,
            List.nodup_cons.mpr ⟨fun again => (later name again).1 rfl, distinct⟩,
            List.forall_mem_cons.mpr ⟨unassigned, fun other member => (later other member).2⟩,
            List.forall_mem_cons.mpr ⟨.inl List.mem_cons_self, fun other member => ?_⟩, board⟩,
            extras, trainees⟩
          obtain new | old := all other member
          · exact .inl (List.mem_cons_of_mem _ new)
          · refine (mem_seatedNames_seat.mp old).imp_left fun same => ?_
            exact same ▸ List.mem_cons_self
  obtain ⟨paired, extras, trainees⟩ := fold state
  unfold Reservations.placeTrainers
  dsimp only
  split
  · exact ⟨paired, extras, trainees⟩
  · exact ⟨paired, congrArg (fun stored : Assignments => stored.alter center _) extras, trainees⟩

/-- What holds of the board while the training blocks are applied. -/
structure Reserved (lower : String → String) (input : Inputs) (state : Reservations)
    (added : String → List String) : Prop where
  kept : Added lower input state.board added
  within : ∀ center, ∃ extras : Finset String,
    (∀ name ∈ extras, name ∈ seatsAt state.temporaryTrainingExtras center ∧
      name ∈ state.board.seats center ∧ FromTraining state.board center name) ∧
    ((state.board.seats center).length : ℤ) ≤
      max (input.effectiveCapacity center + extras.card) (seatsAt input.base center).length

/-- Seating people for training one after another keeps what holds of the added names. -/
theorem Added.placeAll (runs : center ∈ input.allowedCenters) (reason : Reason)
    (code : reason.code = "training_block") (names : List String) :
    ∀ {board : Board} {added : String → List String}, Added lower input board added →
      (∀ name ∈ names, name ∉ board.assigned ∨ name ∈ added center ∧ input.Repeated center name) →
      (∀ name, 2 ≤ names.count name → input.Repeated center name) →
      ∃ more, Added lower input (placeAll center reason names board) more := by
  induction names with
  | nil => exact fun kept _ _ => ⟨_, kept⟩
  | cons name rest ih =>
      intro board added kept new repeated
      obtain ⟨first, later⟩ := List.forall_mem_cons.mp new
      refine ih (kept.place runs first (.inr ⟨reason, rfl, code⟩)) (fun other member => ?_)
        fun other twice => repeated other (twice.trans List.count_le_count_cons)
      by_cases same : other = name
      · subst same
        have twice : 2 ≤ (other :: rest).count other := by
          have once : 0 < rest.count other := List.count_pos_iff.mpr member
          rw [List.count_cons_self]
          omega
        exact .inr ⟨mem_update_append.mpr (.inr ⟨rfl, rfl⟩), repeated other twice⟩
      · refine (later other member).imp (fun free again => ?_) fun old =>
          ⟨mem_update_append.mpr (.inl old.1), old.2⟩
        exact (mem_seatedNames_seat.mp again).elim same free

variable {state next : Reservations} {effect : BlockEffect}

theorem Reserved.move_exact (reserved : Reserved lower input state added)
    (known : effect ∈ input.blockEffects) {group : String} {trainees trainers : List String}
    (trainees_eq : trainees = cleanNames (seatsAt effect.lockedWorkCenters center))
    (inGroup : input.centerGroup lower center = some group) (free : ∀ name ∈ trainees ++ trainers,
      name ∈ input.availableNames lower ∧ name ∉ state.board.assigned)
    (room : (state.board.seats center).length + trainees.length ≤ input.effectiveCapacity center) :
    ∃ more, Reserved lower input
      ((state.placeTrainees group center trainees).placeTrainers center trainers) more := by
  have runs := mem_allowedCenters_of_centerGroup inGroup
  obtain ⟨traineeBoard, traineeExtras, -⟩ := placeTrainees_spec group center trainees state
  obtain ⟨⟨paired, sub, distinct, unassigned, -, board⟩, extras, -⟩ :=
    placeTrainers_spec center trainers (state.placeTrainees group center trainees)
  rw [traineeBoard] at board unassigned
  have repeated : ∀ name, 2 ≤ trainees.count name → input.Repeated center name :=
    fun name twice => ⟨effect, known, trainees_eq ▸ twice⟩
  obtain ⟨first, kept⟩ := reserved.kept.placeAll runs trainingBlockReason rfl trainees
    (fun name member => .inl (free name (List.mem_append_left _ member)).2) repeated
  obtain ⟨more, all⟩ := kept.placeAll runs trainingPairReason rfl paired
    (fun name member => .inl (unassigned name member)) fun name twice =>
      absurd twice (not_le.mpr (Nat.lt_succ_of_le (List.nodup_iff_count_le_one.mp distinct name)))
  have seated : SeatedAt state.board
      ((state.placeTrainees group center trainees).placeTrainers center trainers).board center
        (trainees ++ paired) := by
    rw [board]
    exact (seatedAt_placeAll center rfl trainees state.board).trans
      (seatedAt_placeAll center rfl paired _)
  refine ⟨more, board ▸ all, fun place => ?_⟩
  by_cases here : place = center
  · subst here
    refine ⟨paired.toFinset, fun name member => ?_, ?_⟩
    · have inPaired := List.mem_toFinset.mp member
      have inBoth := List.mem_append_right trainees inPaired
      refine ⟨?_, ?_, seated.training name inBoth⟩
      · rw [extras, if_neg (List.ne_nil_of_mem (sub inPaired)), seatsAt, Dictionary.get_alter,
          if_pos rfl]
        exact sub inPaired
      · rw [seated.here]
        exact List.mem_append_right _ inBoth
    · rw [seated.here, List.length_append, List.length_append,
        List.toFinset_card_of_nodup distinct]
      omega
  · obtain ⟨recorded, known, bound⟩ := reserved.within place
    refine ⟨recorded, fun name member => ?_, ?_⟩
    · obtain ⟨inExtras, inSeats, training⟩ := known name member
      refine ⟨?_, seated.elsewhere place here ▸ inSeats, seated.still training⟩
      have same : seatsAt (state.placeTrainees group center trainees |>.placeTrainers center
          trainers).temporaryTrainingExtras place = seatsAt state.temporaryTrainingExtras place := by
        rw [extras, traineeExtras]
        split
        · rfl
        · rw [seatsAt, Dictionary.get_alter, if_neg here]
          rfl
      rwa [same]
    · rwa [seated.elsewhere place here]

/-- One person seated at a center with an open place. -/
theorem Reserved.place (reserved : Reserved lower input state added)
    (code : reason.code = "training_block") (runs : center ∈ input.allowedCenters)
    (free : name ∉ state.board.assigned)
    (room : (state.board.seats center).length < input.effectiveCapacity center)
    (board : next.board = state.board.place center name (.generated reason))
    (extras : next.temporaryTrainingExtras = state.temporaryTrainingExtras) :
    ∃ more, Reserved lower input next more := by
  refine ⟨_, board ▸ reserved.kept.place runs (.inl free) (.inr ⟨reason, rfl, code⟩),
    fun place => ?_⟩
  have seated : SeatedAt state.board next.board center [name] := by
    rw [board]
    exact (SeatedAt.refl state.board center).place name code
  by_cases here : place = center
  · subst here
    refine ⟨∅, fun _ member => absurd member (Finset.notMem_empty _), ?_⟩
    rw [seated.here, List.length_append, List.length_singleton, Finset.card_empty]
    omega
  · obtain ⟨recorded, known, bound⟩ := reserved.within place
    refine ⟨recorded, fun other member => ?_, ?_⟩
    · obtain ⟨inExtras, inSeats, training⟩ := known other member
      exact ⟨extras ▸ inExtras, seated.elsewhere place here ▸ inSeats, seated.still training⟩
    · rwa [seated.elsewhere place here]

theorem mem_allowedCenters_of_groupCenters {group : String}
    (inGroup : center ∈ input.groupCenters group) : center ∈ input.allowedCenters :=
  of_decide_eq_true (List.mem_filter.mp inGroup).2

/-- **Every step of a training block keeps what holds of the reservations.** -/
theorem Reserved.move (reserved : Reserved lower input state added)
    (known : effect ∈ input.blockEffects) (move : Move lower input effect state next) :
    ∃ more, Reserved lower input next more := by
  cases move with
  | note noted =>
      refine ⟨added, reserved.kept.congr noted.assignments noted.origins, fun center => ?_⟩
      obtain ⟨recorded, holds, bound⟩ := reserved.within center
      have seats : next.board.seats center = state.board.seats center := by
        rw [Board.seats, noted.assignments]
        rfl
      refine ⟨recorded, fun name member => ?_, seats ▸ bound⟩
      obtain ⟨inExtras, inSeats, reason, origin, code⟩ := holds name member
      refine ⟨noted.extras ▸ inExtras, seats ▸ inSeats, reason, ?_, code⟩
      rw [Board.origin, noted.origins]
      exact origin
  | exact trainees_eq _ inGroup free room =>
      exact reserved.move_exact known trainees_eq inGroup free room
  | trainee _ inGroup free room | trainer _ inGroup free room =>
      exact reserved.place rfl (mem_allowedCenters_of_groupCenters inGroup) free room rfl rfl

/-- **Everything that the reservations add is safe.** -/
theorem reservations_added (lower : String → String) (input : Inputs) :
    ∃ added, Reserved lower input (input.reservations lower) added := by
  obtain ⟨added, locks⟩ := lockedBoard_onlyLocks lower input
  have start : Reserved lower input { board := input.lockedBoard lower } added := by
    refine ⟨locks.kept, fun center => ⟨∅, fun _ member => absurd member (Finset.notMem_empty _), ?_⟩⟩
    rw [Finset.card_empty, Nat.cast_zero, add_zero]
    exact locks.within center
  let holds := fun state : Reservations => ∃ added, Reserved lower input state added
  refine List.foldlRecOn (motive := holds) _ _ ⟨added, start⟩ fun state reserved effect known => ?_
  have moves := @applyEffect_moves lower input effect state
  generalize input.applyEffect lower state effect = last at moves ⊢
  induction moves with
  | refl => exact reserved
  | tail _ move ih =>
      obtain ⟨added, kept⟩ := ih
      exact kept.move known move

end Inputs

end PlantManager.Rotation

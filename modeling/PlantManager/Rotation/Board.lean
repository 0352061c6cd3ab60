import PlantManager.Roster.People
import PlantManager.Rotation.Candidates

/-! # The board of a rotation

A rotation starts from a copy of the assignments that exist
(`Rotation.copyBase`) and keeps the manual locks that are safe
(`Rotation.Inputs.lock`). Everyone whom it adds is placed by
`Rotation.Board.place`.
-/

namespace PlantManager.Rotation

open Mapping Ranking Solver Roster

/-! ## Seats -/

/-- The names at each work center, in order. -/
abbrev Assignments := Dictionary String (List String)

def seatsAt (assignments : Assignments) (center : String) : List String :=
  (assignments.get center).getD []

/-- Add a name at a center. -/
def seat (assignments : Assignments) (center name : String) : Assignments :=
  assignments.alter center fun names => names.getD [] ++ [name]

/-- The names on the board. The source keeps them in a set beside the assignments. -/
def seatedNames (assignments : Assignments) : List String := assignments.values.flatten

theorem seatsAt_seat (assignments : Assignments) (center name other : String) :
    seatsAt (seat assignments center name) other =
      if other = center then seatsAt assignments center ++ [name]
      else seatsAt assignments other := by
  rw [seatsAt, seat, Dictionary.get_alter]
  split <;> rfl

theorem mem_seatedNames {assignments : Assignments} {name : String} :
    name ∈ seatedNames assignments ↔ ∃ center, name ∈ seatsAt assignments center := by
  rw [seatedNames, List.mem_flatten]
  constructor
  · rintro ⟨names, listed, member⟩
    obtain ⟨entry, stored, rfl⟩ := List.mem_map.mp listed
    refine ⟨entry.1, ?_⟩
    rwa [seatsAt, Dictionary.get_eq_some_iff.mpr stored]
  · rintro ⟨center, member⟩
    cases found : assignments.get center with
    | none =>
        rw [seatsAt, found] at member
        cases member
    | some names =>
        rw [seatsAt, found] at member
        exact ⟨names, List.mem_map.mpr ⟨_, Dictionary.get_eq_some_iff.mp found, rfl⟩, member⟩

theorem mem_seatedNames_seat {assignments : Assignments} {center name other : String} :
    other ∈ seatedNames (seat assignments center name) ↔
      other = name ∨ other ∈ seatedNames assignments := by
  simp only [mem_seatedNames, seatsAt_seat]
  constructor
  · rintro ⟨place, member⟩
    by_cases here : place = center
    · rw [if_pos here, List.mem_append, List.mem_singleton] at member
      exact member.symm.imp_right fun old => ⟨center, old⟩
    · rw [if_neg here] at member
      exact .inr ⟨place, member⟩
  · rintro (rfl | ⟨place, member⟩)
    · exact ⟨center, by simp⟩
    · refine ⟨place, ?_⟩
      by_cases here : place = center
      · rw [if_pos here]
        exact List.mem_append_left _ (here ▸ member)
      · rwa [if_neg here]

/-! ## What a rotation is asked for -/

structure Location where
  minOps : ℤ
  maxOps : Option ℤ

/-- People with different names. -/
structure Staff where
  people : List Person
  distinct : (people.map Person.name).Nodup

/-- What a training block contributes to a day, by group or by work center. -/
structure BlockEffect where
  lockedPeople : Assignments := ∅
  temporaryExtraPeople : Assignments := ∅
  lockedWorkCenters : Assignments := ∅
  temporaryExtraWorkCenters : Assignments := ∅
  warnings : List String := []

/-- Everything that the engine is given. -/
structure Inputs where
  mode : Mode
  roster : Staff
  preferences : Dictionary String (Dictionary String String) := ∅
  baseAssignments : Assignments := ∅
  groupLocations : Dictionary String (List String)
  groupRequiredSkills : Dictionary String (List String) := ∅
  history : RecycledHistory := {}
  lockedAssignments : Assignments := ∅
  blockEffects : List BlockEffect := []
  centerMinimums : Dictionary String ℤ := ∅
  centerCapacities : Dictionary String (Option ℤ) := ∅
  runnableCenters : Option (List String) := none
  exactDefaults : Assignments := ∅
  groupDefaults : Assignments := ∅
  userGroupCenters : Dictionary String (List String) := ∅
  minimumOnly : Bool := false
  /-- The work centers of the plant, for bounds that are not given. -/
  locations : Dictionary String Location := ∅

namespace Inputs

variable (lower : String → String) (input : Inputs)

def effectiveMinimum (center : String) : ℤ :=
  match input.centerMinimums.get center with
  | some minimum => max 0 minimum
  | none => ((input.locations.get center).map Location.minOps).getD 1

def effectiveCapacity (center : String) : ℤ :=
  match input.centerCapacities.get center with
  | some none => 1000000
  | some (some capacity) => max 0 capacity
  | none =>
      match input.locations.get center with
      | none => 1
      | some location => location.maxOps.getD 1000000

/-- The centers of the groups that may run. -/
def allowedCenters : List String :=
  input.groupLocations.values.flatten.dedup.filter fun center =>
    input.runnableCenters.all fun runnable => decide (center ∈ runnable)

def sortedCenters : List String := sortBy lower input.allowedCenters

def byName (name : String) : Option Person :=
  input.roster.people.find? fun person => person.name = name

/-- The active people outside the reserves, by name. -/
def availableNames : List String :=
  sortBy lower ((input.roster.people.filter fun person =>
    person.active && !person.reserve).map Person.name)

/-- The group of an allowed center: the first by name that lists it. -/
def centerGroup (center : String) : Option String :=
  if center ∈ input.allowedCenters then
    ((sortBy (fun entry => lower entry.1) input.groupLocations.entries).find? fun entry =>
      center ∈ entry.2).map Prod.fst
  else none

/-- The level of a person in a group. -/
def levelOf (name group : String) : ℤ :=
  groupLevel (input.byName name) group input.groupRequiredSkills

end Inputs

/-! ## The copy of the base -/

/-- Keep a name at its center unless it is blank or seated already. -/
def retain (center : String) (assignments : Assignments) (rawName : String) : Assignments :=
  let name := stripped rawName
  if name = "" ∨ name ∈ seatedNames assignments then assignments else seat assignments center name

/-- Copy one center. Centers that do not run are copied whole. -/
def copyCenter (allowed : List String) (assignments : Assignments)
    (entry : String × List String) : Assignments :=
  if entry.1 ∈ allowed then entry.2.foldl (retain entry.1) assignments
  else assignments.alter entry.1 fun _ => entry.2.filter fun name => stripped name ≠ ""

def copyBase (allowed : List String) (base : Assignments) : Assignments :=
  base.entries.foldl (copyCenter allowed) ∅

/-! ## Placing people -/

/-- Why the engine placed somebody. -/
structure Reason where
  text : String
  code : String
deriving DecidableEq, Repr

/-- Where an assignment comes from. A generated one has its reason. -/
inductive Origin where
  | manual
  | generated (reason : Reason)
deriving DecidableEq, Repr

/-- The board while it is filled. The source keeps the origins in three dictionaries: the
sources, and for the generated assignments the reasons and their codes. -/
structure Board where
  assignments : Assignments
  origins : Dictionary String (Dictionary String Origin) := ∅
  warnings : List String := []

namespace Board

variable (board : Board)

def seats (center : String) : List String := seatsAt board.assignments center

def assigned : List String := seatedNames board.assignments

def origin (center name : String) : Option Origin :=
  ((board.origins.get center).getD ∅).get name

def setOrigin (center name : String) (origin : Origin) : Board :=
  { board with origins := board.origins.alter center fun stored =>
      (stored.getD ∅).alter name fun _ => origin }

def place (center name : String) (origin : Origin) : Board :=
  { board.setOrigin center name origin with
    assignments := seat board.assignments center name }

def warn (warning : String) : Board := { board with warnings := board.warnings ++ [warning] }

/-- Add a warning that is not there already. -/
def warnOnce (warning : String) : Board :=
  if warning ∈ board.warnings then board else board.warn warning

variable (center warning : String)

@[simp] theorem seats_setOrigin (name other : String) (origin : Origin) :
    (board.setOrigin center name origin).seats other = board.seats other := rfl

@[simp] theorem seats_warn (center : String) :
    (board.warn warning).seats center = board.seats center := rfl

@[simp] theorem assignments_warnOnce :
    (board.warnOnce warning).assignments = board.assignments := by
  unfold warnOnce
  split <;> rfl

@[simp] theorem origins_warnOnce : (board.warnOnce warning).origins = board.origins := by
  unfold warnOnce
  split <;> rfl

theorem seats_place (name other : String) (origin : Origin) :
    (board.place center name origin).seats other =
      if other = center then board.seats center ++ [name] else board.seats other :=
  seatsAt_seat board.assignments center name other

theorem origin_setOrigin (name : String) (origin : Origin) (place other : String) :
    (board.setOrigin center name origin).origin place other =
      if place = center ∧ other = name then some origin else board.origin place other := by
  rw [Board.origin, setOrigin, Dictionary.get_alter]
  by_cases here : place = center
  · subst here
    rw [if_pos rfl, Option.getD_some, Dictionary.get_alter]
    by_cases same : other = name
    · rw [if_pos same, if_pos ⟨rfl, same⟩]
    · rw [if_neg same, if_neg fun both => same both.2]
      rfl
  · rw [if_neg here, if_neg fun both => here both.1]
    rfl

theorem origin_place (name : String) (origin : Origin) (place other : String) :
    (board.place center name origin).origin place other =
      if place = center ∧ other = name then some origin else board.origin place other :=
  board.origin_setOrigin center name origin place other

end Board

/-! ## Manual locks -/

namespace Inputs

variable (lower : String → String) (input : Inputs)

/-- Keep a manual lock. A lock that is not seated is added only where it is safe. -/
def lock (center : String) (board : Board) (rawName : String) : Board :=
  let name := stripped rawName
  if name = "" then board
  else if name ∈ board.seats center then board.setOrigin center name .manual
  else
    match input.centerGroup lower center with
    | none => board.warn
        s!"{name} was removed from {center} because it is not a safe Auto assignment."
    | some group =>
        if name ∈ board.assigned ∨ name ∉ input.availableNames lower ∨
            input.levelOf name group < 1 ∨
            input.effectiveCapacity center ≤ (board.seats center).length then
          board.warn s!"{name} was removed from {center} because it is not a safe Auto assignment."
        else board.place center name .manual

/-- The board with the base and the locks. -/
def lockedBoard : Board :=
  input.lockedAssignments.entries.foldl
    (fun board entry => entry.2.foldl (input.lock lower entry.1) board)
    { assignments := copyBase input.allowedCenters input.baseAssignments }

end Inputs

end PlantManager.Rotation

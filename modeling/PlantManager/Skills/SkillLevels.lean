import PlantManager.TimeOff.Leaves
import PlantManager.Transition.Runs

/-! # The level of a person in a skill

Odoo has a line for the skill of a person, and the plant a row in `person_skills`. Writers push a
level to Odoo first and mirror it then, and a lock keeps them apart; a roster sync reads the line
and writes the row in a later transaction, without the lock (`Skills.step`). Each read
of Odoo, each write and each transaction is one step, and others edit Odoo between any two.
-/

namespace PlantManager.Skills

open Transition

/-! ## Levels and buckets -/

/-- The bucket of a level by its rank among the levels of its type. -/
def bucketForLevelCount (rank count : ℕ) : ℤ :=
  if count ≤ 1 then 0
  else max 0 (min 3 (TimeOff.roundHalfEven ((rank : ℚ) * 3 / ((count : ℚ) - 1))))

/-- A skill, with the levels of its type in the order of their progress. -/
structure Skill where
  certification : Bool
  levels : List ℤ

def Skill.bucketOf (skill : Skill) (levelId : ℤ) : ℤ :=
  match skill.levels.idxOf? levelId with
  | some rank => bucketForLevelCount rank skill.levels.length
  | none => 0

/-- The last of the levels in a bucket. -/
def Skill.levelForBucket (skill : Skill) (bucket : ℤ) : Option ℤ :=
  (skill.levels.filter fun levelId => skill.bucketOf levelId = bucket).getLast?

/-- The level that a sync reads off a line. A certification counts as three whatever its level. -/
def Skill.given (skill : Skill) : Option ℤ → ℤ
  | none => 0
  | some levelId => if skill.certification then 3 else skill.bucketOf levelId

/-! ## The two sides -/

/-- A row of `person_skills`. -/
structure SkillRow where
  level : ℤ
  localDirty : Bool
  deriving DecidableEq

def levelOf : Option SkillRow → ℤ
  | none => 0
  | some row => row.level

/-- The line after a level was pushed. A level that Odoo cannot have is refused. -/
def Skill.setEmployeeSkillLevel (skill : Skill) (bucket : ℤ) : Except String (Option ℤ) :=
  if bucket ∉ [0, 1, 2, 3] then .error "bucket must be 0, 1, 2, or 3"
  else if bucket = 0 then .ok none
  else
    match skill.levelForBucket bucket with
    | none => .error "Skill type has no level mapped to bucket"
    | some levelId => .ok (some levelId)

/-- The row after a level was mirrored. -/
def mirrorLocal (level : ℤ) : Option SkillRow := if level = 0 then none else some ⟨level, false⟩

/-- The row after a sync. It deletes a row that is not dirty, and writes the level if there is one. -/
def Skill.refresh (skill : Skill) (line : Option ℤ) (row : Option SkillRow) : Option SkillRow :=
  let left := row.filter SkillRow.localDirty
  match line with
  | none => left
  | some _ =>
      if skill.given line ≤ 0 then left
      else some ⟨skill.given line, (left.map SkillRow.localDirty).getD false⟩

/-! ## Writers and syncs -/

/-- Where the writer is that has the lock. -/
inductive Writer where
  | setting (level : ℤ)
  /-- A promotion is to read the row. -/
  | deciding
  /-- A promotion read that the level is missing. -/
  | promoting
  | pushed (level : ℤ) (push : ℕ)
  deriving DecidableEq

/-- What a sync fetched, and how many pushes there were by then. -/
structure Fetch where
  line : Option ℤ
  pushes : ℕ
  deriving DecidableEq

structure State where
  line : Option ℤ
  row : Option SkillRow
  writer : Option Writer
  syncs : ℕ → Option Fetch
  pushes : ℕ
  /-- The pushes whose writers returned, with their levels. -/
  returned : List (ℕ × ℤ)

def State.initial (line : Option ℤ) (row : Option SkillRow) : State :=
  { line, row, writer := none, syncs := fun _ => none, pushes := 0, returned := [] }

inductive Action where
  /-- `set_person_skill_level` gets the lock. -/
  | set (level : ℤ)
  /-- `promote_untrained_person_skill` gets the lock. -/
  | promote
  | decide
  | push
  | mirror
  /-- A writer raises or dies. -/
  | giveUp
  | fetch (sync : ℕ)
  | rewrite (sync : ℕ)
  /-- A sync raises or dies. -/
  | drop (sync : ℕ)
  /-- Somebody changes the line in Odoo. -/
  | edit (line : Option ℤ)

/-- Push a level; the writer raises if Odoo cannot have it. -/
def State.push (skill : Skill) (state : State) (level : ℤ) : State :=
  match skill.setEmployeeSkillLevel level with
  | .error _ => { state with writer := none }
  | .ok line =>
      { state with
        line
        writer := some (.pushed level state.pushes)
        pushes := state.pushes + 1 }

def step (skill : Skill) (state : State) : Action → Option State
  | .set level =>
      if state.writer = none then some { state with writer := some (.setting level) } else none
  | .promote =>
      if state.writer = none then some { state with writer := some .deciding } else none
  | .decide =>
      if state.writer = some .deciding then
        if !skill.certification && levelOf state.row = 0 then
          some { state with writer := some .promoting }
        else some { state with writer := none }
      else none
  | .push =>
      match state.writer with
      | some (.setting level) => some (state.push skill level)
      | some .promoting => some (state.push skill 1)
      | _ => none
  | .mirror =>
      match state.writer with
      | some (.pushed level push) =>
          some { state with
            row := mirrorLocal level
            writer := none
            returned := (push, level) :: state.returned }
      | _ => none
  | .giveUp => some { state with writer := none }
  | .fetch sync =>
      if state.syncs sync = none then
        some { state with
          syncs := Function.update state.syncs sync (some ⟨state.line, state.pushes⟩) }
      else none
  | .rewrite sync =>
      match state.syncs sync with
      | none => none
      | some fetch =>
          some { state with
            row := skill.refresh fetch.line state.row
            syncs := Function.update state.syncs sync none }
  | .drop sync => some { state with syncs := Function.update state.syncs sync none }
  | .edit line => some { state with line }

end PlantManager.Skills

import PlantManager.Mapping.Dictionary
import PlantManager.Solver.Problem

/-! # Who may be sent to a work center

The people of a rotation with their skills, what they prefer, where they worked before, and
the cost that the engine ranks them by. `Rotation.coverageCrewIsSafe` says which
crews may run a center with trainees or a trim saw.
-/

namespace PlantManager.Rotation

open Mapping Ranking Solver

/-- What a rotation is optimized for. -/
inductive Mode where
  | optimized
  | normal
  | training
deriving DecidableEq, Repr

/-- Someone of the roster. A person in reserve is not scheduled. -/
structure Person where
  name : String
  active : Bool := true
  reserve : Bool := false
  skills : Dictionary String ℤ := ∅

def cdlCertifications : List String := ["CDL (Automatics) Certified", "CDL (Manuals) Certified"]

/-- The skill that supplies the level of a scheduling group. -/
def skillNameForSchedulingGroup (group : String) : String :=
  if group = "Dismantler" then "Dismantle" else group

def Person.level (person : Person) (skill : String) : ℤ :=
  let key := skillNameForSchedulingGroup skill
  if key ∈ cdlCertifications then
    ((cdlCertifications.map fun name => (person.skills.get name).getD 0).max?).getD 0
  else (person.skills.get key).getD 0

/-- How often, and where last, people worked at the centers and groups. -/
structure RecycledHistory where
  centerCounts : Dictionary (String × String) ℕ := ∅
  lastCenterByPersonGroup : Dictionary (String × String) String := ∅
  groupCounts : Dictionary (String × String) ℕ := ∅
  mostRecentGroupNames : Dictionary String (List String) := ∅

def trimSawSkill : String := "Trim Saw"

def appearancePenalty : ℤ := 12

def mostRecentPenalty : ℤ := 8

def preferencePoints : Preference → ℤ
  | .primary => 30
  | .regular => 15
  | .occasional => 3
  | .never => -10000

/-- The points of a level, which lies between 0 and 3. -/
def modeSkillPoints (mode : Mode) (level : ℤ) : ℤ :=
  match mode with
  | .optimized => if level = 3 then 100 else if level = 2 then 55 else if level = 1 then 5 else -10000
  | .normal => if level = 3 then 55 else if level = 2 then 40 else if level = 1 then 25 else -10000
  | .training => if level = 3 then 45 else if level = 2 then 70 else if level = 1 then 80 else -10000

/-- A stored preference; what is not one counts as regular. -/
def readPreference : String → Preference
  | "primary" => .primary
  | "occasional" => .occasional
  | "never" => .never
  | _ => .regular

def preferenceFor (preferences : Dictionary String (Dictionary String String))
    (name group : String) : Preference :=
  readPreference ((((preferences.get name).getD ∅).get group).getD "regular")

/-- The lowest level of a person in the skills that a group requires. -/
def groupLevel (person : Option Person) (group : String)
    (requiredSkills : Dictionary String (List String)) : ℤ :=
  match person with
  | none => 0
  | some person =>
      let skills := (requiredSkills.get group).getD [group]
      ((skills.map fun skill => max 0 (min 3 (person.level skill))).min?).getD 0

def rotationFairness (name group : String) (history : RecycledHistory) : ℤ :=
  -(((history.groupCounts.get (name, group)).getD 0 : ℕ) : ℤ) * appearancePenalty -
    if name ∈ (history.mostRecentGroupNames.get group).getD [] then mostRecentPenalty else 0

section Ranks

variable (mode : Mode) (person : Person) (group center : String)
  (preferences : Dictionary String (Dictionary String String)) (history : RecycledHistory)
  (requiredSkills : Dictionary String (List String))

/-- The first part of the key that people are ranked by, which is all that the cost uses. -/
def candidateRank : ℤ :=
  let level := groupLevel (some person) group requiredSkills
  let tiebreak := preferencePoints (preferenceFor preferences person.name group) +
    rotationFairness person.name group history
  match mode with
  | .optimized => -modeSkillPoints .optimized level
  | .normal | .training => -(modeSkillPoints .normal level + tiebreak)

def minimumRankCost : ℤ :=
  let level := groupLevel (some person) group requiredSkills
  let modeCost := 10000 + candidateRank mode person group preferences history requiredSkills
  let centerFairnessCost : ℤ :=
    ((history.centerCounts.get (person.name, center)).getD 0 : ℕ) * 2 +
      if some center = history.lastCenterByPersonGroup.get (person.name, group) then 1 else 0
  (3 - level) * 1000000000000 + modeCost * 1000000 + centerFairnessCost

def minimumEligible : Prop :=
  person.active = true ∧ person.reserve = false ∧
    1 ≤ groupLevel (some person) group requiredSkills

instance : Decidable (minimumEligible person group requiredSkills) :=
  inferInstanceAs (Decidable (_ ∧ _))

end Ranks

/-- Two levels that may run a trim saw together. -/
def validTrimSawPair (first second : ℤ) : Prop :=
  if min first second ≤ 1 then 3 ≤ max first second else 2 ≤ min first second

instance (first second : ℤ) : Decidable (validTrimSawPair first second) :=
  inferInstanceAs (Decidable (if min first second ≤ 1 then 3 ≤ max first second
    else 2 ≤ min first second))

/-- Exactly two levels, which may run a trim saw together. -/
def FormsTrimSawPair : List ℤ → Prop
  | [first, second] => validTrimSawPair first second
  | _ => False

instance : DecidablePred FormsTrimSawPair
  | [] => .isFalse id
  | [_] => .isFalse id
  | [first, second] => inferInstanceAs (Decidable (validTrimSawPair first second))
  | _ :: _ :: _ :: _ => .isFalse id

/-- Trainees need a partner of level 3, and a trim saw needs exactly two people who may run it
together. -/
def coverageCrewIsSafe (group : String) (existing newPeople : List String)
    (byName : String → Option Person) (requiredSkills : Dictionary String (List String))
    (trainees : List String) : Prop :=
  let finalPeople := existing ++ newPeople
  (trainees ≠ [] → ∃ name ∈ finalPeople, name ∉ trainees ∧
      groupLevel (byName name) group requiredSkills = 3) ∧
    (group = trimSawSkill →
      FormsTrimSawPair (finalPeople.map fun name => groupLevel (byName name) group requiredSkills))

instance (group : String) (existing newPeople : List String) (byName : String → Option Person)
    (requiredSkills : Dictionary String (List String)) (trainees : List String) :
    Decidable (coverageCrewIsSafe group existing newPeople byName requiredSkills trainees) :=
  inferInstanceAs (Decidable ((trainees ≠ [] → ∃ name ∈ existing ++ newPeople, name ∉ trainees ∧
      groupLevel (byName name) group requiredSkills = 3) ∧
    (group = trimSawSkill → FormsTrimSawPair ((existing ++ newPeople).map fun name =>
      groupLevel (byName name) group requiredSkills))))

/-- The choices of some items of a list, in their order, by position. -/
def combinations {α : Type*} : ℕ → List α → List (List α)
  | 0, _ => [[]]
  | _ + 1, [] => []
  | size + 1, item :: rest =>
      (combinations size rest).map (item :: ·) ++ combinations (size + 1) rest

theorem sublist_of_mem_combinations {α : Type*} {size : ℕ} {items chosen : List α}
    (member : chosen ∈ combinations size items) : chosen.Sublist items ∧ chosen.length = size := by
  induction items generalizing size chosen with
  | nil =>
      cases size with
      | zero =>
          obtain rfl := List.mem_singleton.mp member
          exact ⟨List.Sublist.refl _, rfl⟩
      | succ size => cases member
  | cons item rest ih =>
      cases size with
      | zero =>
          obtain rfl := List.mem_singleton.mp member
          exact ⟨List.nil_sublist _, rfl⟩
      | succ size =>
          rcases List.mem_append.mp member with taken | skipped
          · obtain ⟨others, inside, rfl⟩ := List.mem_map.mp taken
            obtain ⟨sub, length⟩ := ih inside
            exact ⟨sub.cons_cons item, congrArg Nat.succ length⟩
          · obtain ⟨sub, length⟩ := ih skipped
            exact ⟨sub.cons item, length⟩

/-- The center where a person worked least, other than last time if possible. -/
def chooseCenter (lower : String → String) (name group : String) (centers : List String)
    (history : RecycledHistory) : Option String :=
  (sortBy (fun center =>
    toLex ((history.centerCounts.get (name, center)).getD 0,
      toLex (decide (some center = history.lastCenterByPersonGroup.get (name, group)),
        lower center))) centers).head?

end PlantManager.Rotation

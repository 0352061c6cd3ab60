import PlantManager.Checks.Raise
import PlantManager.Mapping.SortedMap
import PlantManager.Matching.Augmenting
import PlantManager.Ranking.Sorting

/-! # Rules of Saturday recruiting

Which hours a volunteer may offer, which work centers a volunteer is eligible for, and whether
openings can be filled with committed people. A time of day is in microseconds.
-/

namespace PlantManager.Saturday

open Checks Mapping Matching

inductive Failure where
  | saturdayRecruitingError (message : String)
  | invalidAvailability (message : String)
  | lifecycleConflict (message : String)
  | recruitingClosed (message : String)
  | noCompatibleOpening (message : String)
deriving DecidableEq, Repr

structure Opening where
  wcId : ℤ
  wcName : String
  requestedCount : ℕ
  requiredSkills : List String
deriving DecidableEq

structure Commitment where
  personId : ℤ
  eligibleWcIds : Finset ℤ
deriving DecidableEq

structure Coverage where
  total : ℕ
  filledByWc : SortedMap ℤ ℕ
  wcByPerson : SortedMap ℤ ℤ

/-- A place of an opening. -/
abbrev Slot := ℤ × ℕ

def OnHalfHour (value : ℕ) : Prop := value % 1800000000 = 0

instance (value : ℕ) : Decidable (OnHalfHour value) :=
  inferInstanceAs (Decidable (value % 1800000000 = 0))

/-- Require half hours inside the Saturday shift. -/
def validateAvailability (start finish shiftStart shiftEnd : ℕ) : Except Failure Unit := do
  raiseIf (¬OnHalfHour start ∨ ¬OnHalfHour finish)
    (.invalidAvailability "Availability must use 30-minute increments")
  raiseIf (start < shiftStart ∨ shiftEnd < finish ∨ finish ≤ start)
    (.invalidAvailability "Availability must stay within the Saturday shift")

/-- The work centers whose every required skill is at least level 1. -/
def eligibleWorkCenters (level : String → ℤ) (openings : List Opening) : Finset ℤ :=
  ((openings.filter fun opening => opening.requiredSkills ≠ [] ∧
    ∀ skill ∈ opening.requiredSkills, 1 ≤ level skill).map Opening.wcId).toFinset

def slotsOf (openings : List Opening) : List Slot :=
  (Ranking.sortBy Opening.wcId openings).flatMap fun opening =>
    (List.range opening.requestedCount).map fun index => (opening.wcId, index)

/-- Who may take which slot. -/
def fits (byPerson : SortedMap ℤ Commitment) (person : ℤ) (slot : Slot) : Bool :=
  match byPerson.get person with
  | none => false
  | some commitment => decide (slot.1 ∈ commitment.eligibleWcIds)

/-- Find a slot for each of the people, rematching flexible ones when required. -/
def matchCommitments (openings : List Opening) (commitments : List Commitment) :
    Option Coverage :=
  let slots := slotsOf openings
  let byPerson := SortedMap.ofList (commitments.map fun item => (item.personId, item))
  let people := byPerson.keys
  if people.length ≠ commitments.length ∨ slots.length < people.length then none
  else
    (matchAll (fits byPerson) slots people fun _ => none).map fun personForSlot =>
      let filled := slots.filterMap fun slot => (personForSlot slot).map fun person => (person, slot.1)
      { total := people.length
        filledByWc := SortedMap.ofList (openings.map fun opening =>
          (opening.wcId, filled.countP fun entry => entry.2 = opening.wcId))
        wcByPerson := SortedMap.ofList filled }

/-! ## Matchings -/

/-- Each of the people has a place of its own, of an opening it may take. -/
def Placeable (openings : List Opening) (commitments : List Commitment) : Prop :=
  ∃ place : ℤ → Slot,
    (∀ item ∈ commitments, place item.personId ∈ slotsOf openings ∧
      (place item.personId).1 ∈ item.eligibleWcIds) ∧
    ∀ first ∈ commitments, ∀ second ∈ commitments,
      place first.personId = place second.personId → first.personId = second.personId

theorem get_ofList_of_mem {items : List (ℤ × Commitment)} {key : ℤ} {value : Commitment}
    (nodup : (items.map Prod.fst).Nodup) (member : (key, value) ∈ items) :
    (SortedMap.ofList items).get key = some value :=
  (SortedMap.get_ofList_eq_some_iff nodup).mpr member

theorem placeable_of_matchCommitments {openings : List Opening} {commitments : List Commitment}
    {coverage : Coverage} (nodup : (commitments.map Commitment.personId).Nodup)
    (covered : matchCommitments openings commitments = some coverage) :
    Placeable openings commitments := by
  obtain ⟨-, covered⟩ := Option.ite_none_left_eq_some.mp covered
  obtain ⟨holder, matched, -⟩ := Option.map_eq_some_iff.mp covered
  have keyed : ((commitments.map fun item => (item.personId, item)).map Prod.fst).Nodup := by
    rw [List.map_map]
    exact nodup
  have once : (SortedMap.ofList (commitments.map fun item => (item.personId, item))).keys.Nodup :=
    List.pairwise_map.mpr ((SortedMap.ofList _).sorted.imp fun below => below.ne)
  obtain ⟨valid, all⟩ := matchAll_sound once valid_none (fun _ _ _ held => by cases held) matched
  have stored : ∀ item ∈ commitments, (SortedMap.ofList
      (commitments.map fun item => (item.personId, item))).get item.personId = some item :=
    fun item member => get_ofList_of_mem keyed (List.mem_map_of_mem member)
  have seated : ∀ item ∈ commitments, ∃ slot, holder slot = some item.personId := by
    intro item member
    apply all
    apply Or.inl
    exact SortedMap.get_isSome_iff.mp (stored item member ▸ rfl)
  classical
  refine ⟨fun person => if held : ∃ slot, holder slot = some person then held.choose else (0, 0),
    fun item member => ?_, fun first firstMember second secondMember same => ?_⟩
  · dsimp only
    rw [dif_pos (seated item member)]
    have chosen := (seated item member).choose_spec
    obtain ⟨inSlots, fit⟩ := valid.fitting _ _ chosen
    refine ⟨inSlots, ?_⟩
    rw [fits, stored item member] at fit
    exact of_decide_eq_true fit
  · dsimp only at same
    rw [dif_pos (seated first firstMember), dif_pos (seated second secondMember)] at same
    have chosen := (seated first firstMember).choose_spec
    rw [same, (seated second secondMember).choose_spec] at chosen
    exact (Option.some.inj chosen).symm

end PlantManager.Saturday

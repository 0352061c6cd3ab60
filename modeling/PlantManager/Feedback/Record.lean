import Mathlib
import PlantManager.Transition.Runs

/-! # The local feedback record

The lifecycle columns of one row of `feedback` whose lifecycle is local. Coding feedback is
moved here, review feedback follows Odoo. Every change of the lifecycle raises the projection
version. Instants are microseconds.
-/

namespace PlantManager.Feedback

inductive Status where
  | requested
  | inProgress
  | completed
  | declined
deriving DecidableEq

def Status.Terminal (status : Status) : Prop := status = .completed ∨ status = .declined

instance (status : Status) : Decidable status.Terminal := inferInstanceAs (Decidable (_ ∨ _))

def transitions : Status → List Status
  | .requested => [.inProgress, .completed, .declined]
  | .inProgress => [.completed, .declined]
  | .completed => []
  | .declined => []

/-- Who moves the feedback: this application, or the reviewers in Odoo. -/
inductive Behavior where
  | coding
  | review
deriving DecidableEq

structure Record where
  behavior : Behavior
  status : Status
  finishedAt : Option ℤ
  finishedBy : Option String
  resolutionNote : Option String
  projectionVersion : ℕ
deriving DecidableEq

def createSubmission (behavior : Behavior) : Record where
  behavior := behavior
  status := .requested
  finishedAt := none
  finishedBy := none
  resolutionNote := none
  projectionVersion := 1

/-- A change that somebody asks for; the actor and the note are stripped already. -/
structure Change where
  status : Status
  cleanActor : String
  cleanNote : String
  afterImage : Bool
deriving DecidableEq

/-- Apply one allowed change to feedback that is moved here. -/
def Record.transition (record : Record) (change : Change) (now : ℤ) : Option Record :=
  if record.behavior = .review then none
  else if change.status ∉ transitions record.status then none
  else if change.status.Terminal ∧ (change.cleanActor = "" ∨ change.cleanNote = "") then none
  else if change.afterImage ∧ ¬change.status.Terminal then none
  else some
    { record with
      status := change.status
      finishedAt := if change.status.Terminal then some now else none
      finishedBy := if change.status.Terminal then some change.cleanActor else none
      resolutionNote := if change.status.Terminal then some change.cleanNote else none
      projectionVersion := record.projectionVersion + 1 }

/-- What a reviewer's task in Odoo says about the feedback. -/
structure Review where
  status : Status
  finishedAt : Option ℤ
  finishedBy : Option String
  resolutionNote : Option String
deriving DecidableEq

def Record.review (record : Record) : Review where
  status := record.status
  finishedAt := record.finishedAt
  finishedBy := record.finishedBy
  resolutionNote := record.resolutionNote

/-- A result has all its detail, and an open review none. -/
def Review.WellFormed (review : Review) : Prop :=
  (review.status.Terminal →
    review.finishedAt.isSome ∧ review.finishedBy.isSome ∧ review.resolutionNote.isSome) ∧
  (¬review.status.Terminal →
    review.finishedAt = none ∧ review.finishedBy = none ∧ review.resolutionNote = none)

instance (review : Review) : Decidable review.WellFormed :=
  inferInstanceAs (Decidable ((_ → _ ∧ _ ∧ _) ∧ (_ → _ ∧ _ ∧ _)))

/-- Follow a reviewer, as long as the record is as the candidate was read. -/
def Record.adopt (record : Record) (status : Status) (projectionVersion : ℕ) (review : Review) :
    Option Record :=
  if ¬review.WellFormed then none
  else if record.status ≠ status ∨ record.projectionVersion ≠ projectionVersion then none
  else if review.status ≠ record.status ∧ review.status ∉ transitions record.status then none
  else if record.status.Terminal ∧ review ≠ record.review then none
  else some
    { record with
      status := review.status
      finishedAt := review.finishedAt
      finishedBy := review.finishedBy
      resolutionNote := review.resolutionNote
      projectionVersion :=
        if review ≠ record.review then projectionVersion + 1 else projectionVersion }

/-! ## What a change does -/

variable {changed record : Record}

variable {change : Change}

theorem Record.transition_eq {now : ℤ} (moved : record.transition change now = some changed) :
    record.behavior = .coding ∧ changed.behavior = record.behavior ∧
      changed.status = change.status ∧
      changed.projectionVersion = record.projectionVersion + 1 := by
  obtain ⟨managed, moved⟩ := Option.ite_none_left_eq_some.mp moved
  have coding : record.behavior = .coding := by
    cases behavior : record.behavior with
    | coding => rfl
    | review => exact absurd behavior managed
  obtain ⟨-, moved⟩ := Option.ite_none_left_eq_some.mp moved
  obtain ⟨-, moved⟩ := Option.ite_none_left_eq_some.mp moved
  obtain ⟨-, moved⟩ := Option.ite_none_left_eq_some.mp moved
  obtain rfl := Option.some.inj moved
  exact ⟨coding, rfl, rfl, rfl⟩

/-- A result is not moved any more. -/
theorem Record.transition_open {now : ℤ} (moved : record.transition change now = some changed) :
    ¬record.status.Terminal := by
  intro terminal
  obtain ⟨-, moved⟩ := Option.ite_none_left_eq_some.mp moved
  obtain ⟨allowed, moved⟩ := Option.ite_none_left_eq_some.mp moved
  rcases terminal with finished | finished <;> rw [finished] at allowed <;>
    exact allowed (List.not_mem_nil)

/-- Adopting a review either changes nothing or raises the version. -/
theorem Record.adopt_eq {status : Status} {version : ℕ} {review : Review}
    (adopted : record.adopt status version review = some changed) :
    changed.behavior = record.behavior ∧ record.projectionVersion = version ∧
      (changed = record ∨ changed.projectionVersion = record.projectionVersion + 1) := by
  obtain ⟨-, adopted⟩ := Option.ite_none_left_eq_some.mp adopted
  obtain ⟨same, adopted⟩ := Option.ite_none_left_eq_some.mp adopted
  obtain ⟨-, rfl⟩ : record.status = status ∧ record.projectionVersion = version := by
    simpa using same
  obtain ⟨-, adopted⟩ := Option.ite_none_left_eq_some.mp adopted
  obtain ⟨-, adopted⟩ := Option.ite_none_left_eq_some.mp adopted
  obtain rfl := Option.some.inj adopted
  refine ⟨rfl, rfl, ?_⟩
  by_cases unchanged : review = record.review
  · left
    rw [if_neg (not_not_intro unchanged), unchanged]
    rfl
  · exact Or.inr (if_pos unchanged)

/-- The lifecycle is as it was, or has a later version. -/
def Record.Precedes (record changed : Record) : Prop :=
  changed.behavior = record.behavior ∧
    (changed = record ∨ record.projectionVersion < changed.projectionVersion)

theorem Record.precedes_transition {now : ℤ} (moved : record.transition change now = some changed) :
    record.Precedes changed := by
  obtain ⟨-, behavior, -, version⟩ := Record.transition_eq moved
  exact ⟨behavior, .inr (version ▸ Nat.lt_succ_self _)⟩

theorem Record.precedes_adopt {status : Status} {version : ℕ} {review : Review}
    (adopted : record.adopt status version review = some changed) : record.Precedes changed := by
  obtain ⟨behavior, -, same | version⟩ := Record.adopt_eq adopted
  · exact ⟨behavior, .inl same⟩
  · exact ⟨behavior, .inr (version ▸ Nat.lt_succ_self _)⟩

theorem Record.Precedes.le (precedes : record.Precedes changed) :
    record.projectionVersion ≤ changed.projectionVersion := by
  rcases precedes.2 with rfl | later
  · exact Nat.le_refl _
  · exact Nat.le_of_lt later

/-! ## Every history of a record -/

inductive Move where
  | transition (change : Change) (now : ℤ)
  | adopt (status : Status) (projectionVersion : ℕ) (review : Review)

def Record.step (record : Record) : Move → Option Record
  | .transition change now => record.transition change now
  | .adopt status projectionVersion review => record.adopt status projectionVersion review

variable {move : Move}

theorem Record.wellFormed_step (moved : record.step move = some changed) :
    changed.review.WellFormed := by
  cases move with
  | transition change now =>
      obtain ⟨-, moved⟩ := Option.ite_none_left_eq_some.mp moved
      obtain ⟨-, moved⟩ := Option.ite_none_left_eq_some.mp moved
      obtain ⟨-, moved⟩ := Option.ite_none_left_eq_some.mp moved
      obtain ⟨-, moved⟩ := Option.ite_none_left_eq_some.mp moved
      obtain rfl := Option.some.inj moved
      by_cases terminal : change.status.Terminal <;>
        simp [Review.WellFormed, Record.review, terminal]
  | adopt status projectionVersion review =>
      obtain ⟨wellFormed, moved⟩ := Option.ite_none_left_eq_some.mp moved
      obtain ⟨-, moved⟩ := Option.ite_none_left_eq_some.mp moved
      obtain ⟨-, moved⟩ := Option.ite_none_left_eq_some.mp moved
      obtain ⟨-, moved⟩ := Option.ite_none_left_eq_some.mp moved
      obtain rfl := Option.some.inj moved
      exact not_not.mp wellFormed

theorem Record.step_open (moved : record.step move = some changed) :
    changed = record ∨
      ¬record.status.Terminal ∧ record.projectionVersion < changed.projectionVersion := by
  cases move with
  | transition change now =>
      obtain ⟨-, -, -, version⟩ := Record.transition_eq moved
      exact .inr ⟨Record.transition_open moved, version ▸ Nat.lt_succ_self _⟩
  | adopt status projectionVersion review =>
      rcases (Record.adopt_eq moved).2.2 with same | version
      · exact .inl same
      · refine .inr ⟨fun terminal => ?_, version ▸ Nat.lt_succ_self _⟩
        obtain ⟨-, moved⟩ := Option.ite_none_left_eq_some.mp moved
        obtain ⟨current, moved⟩ := Option.ite_none_left_eq_some.mp moved
        obtain ⟨-, moved⟩ := Option.ite_none_left_eq_some.mp moved
        obtain ⟨final, moved⟩ := Option.ite_none_left_eq_some.mp moved
        have unchanged : review = record.review := by simpa [terminal] using final
        obtain rfl := Option.some.inj moved
        simp [unchanged] at version
        omega

/-- **A result is final, and a version tells which lifecycle it is of.** -/
theorem Record.final (behavior : Behavior) (moves more : List Move) :
    let record := Transition.after Record.step moves (createSubmission behavior)
    let later := Transition.after Record.step more record
    record.review.WellFormed ∧ (later = record ∨
      ¬record.status.Terminal ∧ record.projectionVersion < later.projectionVersion) := by
  intro record later
  constructor
  · have reachable : Transition.Reachable (createSubmission behavior) Record.step
        (fun _ _ => True) record := Transition.Reachable.after (fun _ _ _ => trivial) .initial
    refine reachable.invariant ?_ fun _ _ _ _ _ moved => Record.wellFormed_step moved
    simp [createSubmission, Review.WellFormed, Record.review, Status.Terminal]
  · change Transition.after Record.step more record = record ∨ ¬record.status.Terminal ∧
      record.projectionVersion < (Transition.after Record.step more record).projectionVersion
    generalize record = record
    induction more generalizing record with
    | nil => exact .inl rfl
    | cons move rest ih =>
        change Transition.after _ rest ((record.step move).getD record) = record ∨ _ ∧ _ <
          (Transition.after _ rest ((record.step move).getD record)).projectionVersion
        cases moved : record.step move with
        | none => exact ih record
        | some changed =>
            rw [Option.getD_some]
            rcases Record.step_open moved with rfl | ⟨isOpen, raised⟩
            · exact ih changed
            · rcases ih changed with same | ⟨-, later⟩
              · exact .inr ⟨isOpen, by rwa [same]⟩
              · exact .inr ⟨isOpen, raised.trans later⟩

end PlantManager.Feedback

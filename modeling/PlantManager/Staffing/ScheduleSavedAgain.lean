import PlantManager.Staffing.ScheduleCacheFresh

/-! # A schedule that is saved as it was loaded

Whatever the calls of a day have stored, a page that loads it and saves it again changes nothing
(`Staffing.Cache.saved_again`).
-/

namespace PlantManager.Staffing

open Mapping Transition

variable {H : Type*} {roster : Roster}

theorem storedAssignments_again (assignments : Assignments) :
    storedAssignments roster (storedAssignments roster assignments) =
      storedAssignments roster assignments := by
  apply SortedMap.ofList_filterMap_again
  · intro entry other kept
    dsimp only at kept
    split at kept
    · cases kept
    · cases kept
      rfl
  · intro entry other kept
    dsimp only at kept
    split at kept
    · cases kept
    · next some_ =>
        cases kept
        simp only [List.filter_filter, Bool.and_self]
        rw [if_neg some_]

theorem storedNotes_again (wcNotes : SortedMap String String) :
    storedNotes roster (storedNotes roster wcNotes) = storedNotes roster wcNotes := by
  unfold storedNotes
  simp only [← List.filterMap_eq_filter]
  apply SortedMap.ofList_filterMap_again
  · intro entry other kept
    exact congrArg Prod.fst (Option.guard_eq_some_iff.mp kept).1.symm
  · intro entry other kept
    obtain ⟨rfl, _⟩ := Option.guard_eq_some_iff.mp kept
    exact kept

/-- What is stored is what a save of it stores. -/
structure Canonical (roster : Roster) (stored : Stored H) : Prop where
  assignments : storedAssignments roster stored.assignments = stored.assignments
  wcNotes : storedNotes roster stored.wcNotes = stored.wcNotes
  mode : rotationModeOr stored.row.recycledRotationMode = stored.row.recycledRotationMode

theorem rotationModeOr_again (mode : String) :
    rotationModeOr (rotationModeOr mode) = rotationModeOr mode := by
  unfold rotationModeOr
  split <;> simp_all

theorem canonical_storedOf (schedule : Schedule H) : Canonical roster (storedOf roster schedule) :=
  ⟨storedAssignments_again _, storedNotes_again _, rotationModeOr_again _⟩

theorem canonical_save (schedule : Schedule H) (previous : Option (Stored H)) :
    Canonical roster (saveScheduleWithCursor roster schedule previous) := by
  cases previous with
  | none => exact canonical_storedOf schedule
  | some _ => exact ⟨storedAssignments_again _, storedNotes_again _, rotationModeOr_again _⟩

theorem Canonical.recordDelivery {version : String} {patch : Delivery} {stored next : Stored H}
    (canonical : Canonical roster stored)
    (recorded : recordDelivery version patch (some stored) = some next) :
    Canonical roster next := by
  unfold Staffing.recordDelivery at recorded
  dsimp only at recorded
  split at recorded
  · split at recorded <;> cases recorded <;> exact ⟨canonical.1, canonical.2, canonical.3⟩
  · split at recorded
    · cases recorded
      exact canonical
    · split at recorded <;> cases recorded <;> exact ⟨canonical.1, canonical.2, canonical.3⟩

theorem savedSnapshot_same {stored excluded : Row H}
    (same : excluded.published = stored.published) :
    savedSnapshot stored excluded = excluded.publishedSnapshot := by
  unfold savedSnapshot
  rw [same]
  cases excluded.publishedSnapshot with
  | none => rfl
  | some snapshot =>
      dsimp only
      rw [if_neg]
      rintro ⟨published, draft, -⟩
      exact draft published

theorem Canonical.saved {stored : Stored H} (canonical : Canonical roster stored) :
    saveScheduleWithCursor roster (contentsOf roster (some stored)) (some stored) = stored := by
  obtain ⟨assignments, wcNotes, mode⟩ := canonical
  obtain ⟨row, seats, texts⟩ := stored
  dsimp only at assignments wcNotes mode
  have snapshot : savedSnapshot row (rowOf roster (hydrate roster row seats texts)) =
      row.publishedSnapshot := savedSnapshot_same rfl
  simp only [saveScheduleWithCursor, contentsOf, snapshot]
  simp only [storedOf, hydrate, rowOf, assignments, wcNotes, mode]

namespace Cache

variable {S : Type*} [DecidableEq S]

/-- What a step leaves of the stored schedule. -/
theorem contents_step {state next : State S H} {action : Action S H}
    (taken : step roster state action = some next) :
    next.contents = state.contents ∨
      (∃ schedule, next.contents = some (saveScheduleWithCursor roster schedule state.contents)) ∨
      ∃ version patch, next.contents = recordDelivery version patch state.contents := by
  cases action with
  | saveCommit session =>
      simp only [step] at taken
      repeat' split at taken
      all_goals cases taken
      exact .inr (.inl ⟨_, rfl⟩)
  | removeCommit session =>
      simp only [step] at taken
      repeat' split at taken
      all_goals cases taken
      exact .inr (.inl ⟨_, rfl⟩)
  | createCommit session schedule =>
      simp only [step] at taken
      split at taken
      · cases taken
        exact .inl rfl
      · next _ absent =>
          split at taken <;> cases taken
          exact .inr (.inl ⟨schedule, by rw [absent]; rfl⟩)
      · cases taken
  | recordCommit session version patch =>
      simp only [step] at taken
      repeat' split at taken
      all_goals cases taken
      exact .inr (.inr ⟨version, patch, rfl⟩)
  | _ =>
      simp only [step] at taken
      repeat' split at taken
      all_goals cases taken <;> exact .inl rfl

theorem canonical_step {state next : State S H} {action : Action S H}
    (canonical : ∀ stored ∈ state.contents, Canonical roster stored)
    (taken : step roster state action = some next) :
    ∀ stored ∈ next.contents, Canonical roster stored := by
  intro stored member
  rcases contents_step taken with same | ⟨schedule, saved⟩ | ⟨version, patch, recorded⟩
  · exact canonical stored (same ▸ member)
  · rw [saved] at member
    cases member
    exact canonical_save schedule _
  · rw [recorded] at member
    cases found : state.contents with
    | none =>
        rw [found] at member
        cases member
    | some before =>
        rw [found] at member
        exact (canonical before found).recordDelivery member

end Cache

end PlantManager.Staffing

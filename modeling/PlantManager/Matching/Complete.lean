import PlantManager.Matching.Augmenting

/-! # A failed search proves that there is no matching

A search without success has seen every slot that fits the person or the holder of a slot it has
seen (`Matching.augment_exhausted`). These people are one more than their slots, so
people who can all be placed are (`Matching.matchAll_complete`). The fuel stands for a
recursion that terminates: it solves the equation of the search, and nothing else does
(`Matching.solves_iff`).
-/

namespace PlantManager.Matching

variable {P S : Type*} [DecidableEq S] {fits : P → S → Bool} {slots : List S}

/-- What a search for a person leaves that has no success. -/
structure Exhausted (fits : P → S → Bool) (slots offered : List S) (person : P)
    (search failed : Search P S) : Prop where
  holder : failed.holder = search.holder
  fitting : ∀ slot ∈ offered, fits person slot = true → slot ∈ failed.seen
  blocked : ∀ slot ∈ failed.seen, slot ∉ search.seen → ∃ prior, search.holder slot = some prior ∧
    ∀ other ∈ slots, fits prior other = true → other ∈ failed.seen

/-- A search goes on after the slot of a holder who found no other. -/
theorem Exhausted.of_holder {person prior : P} {slot : S} {rest : List S}
    {search failed final : Search P S} (held : search.holder slot = some prior)
    (first : Exhausted fits slots slots prior (search.visit slot) failed)
    (visited : slot ∈ failed.seen) (grows : failed.seen ⊆ final.seen)
    (later : Exhausted fits slots rest person failed final) :
    Exhausted fits slots (slot :: rest) person search final where
  holder := later.holder.trans first.holder
  fitting := by
    intro other member fit
    rcases List.mem_cons.mp member with rfl | member
    · exact grows visited
    · exact later.fitting other member fit
  blocked := by
    intro other seen unseen
    by_cases before : other ∈ failed.seen
    · by_cases same : other = slot
      · subst same
        exact ⟨prior, held, fun place offered fit => grows (first.fitting place offered fit)⟩
      · obtain ⟨holds, owned, fitting⟩ := first.blocked other before
          fun visited => (List.mem_cons.mp visited).elim same unseen
        exact ⟨holds, owned, fun place offered fit => grows (fitting place offered fit)⟩
    · obtain ⟨holds, owned, fitting⟩ := later.blocked other seen before
      rw [first.holder] at owned
      exact ⟨holds, owned, fitting⟩

theorem offer_exhausted {next : P → Search P S → Bool × Search P S} {bound : ℕ}
    (grows : ∀ person search, search.seen ⊆ (next person search).2.seen)
    (exhausts : ∀ person search, unseen slots search < bound → (next person search).1 = false →
      Exhausted fits slots slots person search (next person search).2)
    (person : P) {offered : List S} (subset : offered ⊆ slots) (search : Search P S)
    (few : unseen slots search ≤ bound)
    (fails : (offer next fits person offered search).1 = false) :
    Exhausted fits slots offered person search (offer next fits person offered search).2 := by
  induction offered generalizing search with
  | nil => exact ⟨rfl, fun _ member => absurd member List.not_mem_nil,
      fun _ seen unseen => absurd seen unseen⟩
  | cons slot rest ih =>
      have later := List.subset_of_cons_subset subset
      rw [offer] at fails ⊢
      split at fails
      · next skipped =>
          rw [if_pos skipped]
          have exhausted := ih later search few fails
          refine ⟨exhausted.holder, fun other member fit => ?_, exhausted.blocked⟩
          rcases List.mem_cons.mp member with rfl | member
          · refine seen_subset_offer grows person rest search (skipped.resolve_left ?_)
            rw [fit]
            exact Bool.noConfusion
          · exact exhausted.fitting other member fit
      · next takes =>
          rw [if_neg takes]
          have fewer := unseen_visit_lt (subset List.mem_cons_self) (not_or.mp takes).2
          split at fails
          · cases fails
          · next prior held =>
              have visited := grows prior (search.visit slot) List.mem_cons_self
              have found := exhausts prior (search.visit slot) (by omega)
              have less : unseen slots (next prior (search.visit slot)).2 ≤
                  unseen slots (search.visit slot) := unseen_le (grows prior (search.visit slot))
              split at fails
              · cases fails
              · next failed same =>
                  rw [same] at visited found less
                  have final := ih later failed (by dsimp only at less; omega) fails
                  exact (found rfl).of_holder held visited
                    (seen_subset_offer grows person rest failed) final

theorem augment_exhausted {fuel : ℕ} (person : P) (search : Search P S)
    (enough : unseen slots search < fuel)
    (fails : (augment fits slots fuel person search).1 = false) :
    Exhausted fits slots slots person search (augment fits slots fuel person search).2 := by
  induction fuel generalizing person search with
  | zero => exact absurd enough (Nat.not_lt_zero _)
  | succ fuel ih =>
      exact offer_exhausted (seen_subset_augment fuel) ih person (List.Subset.refl slots) search
        (Nat.le_of_lt_succ enough) fails

/-! ## Completeness -/

/-- The people of a matching, and one who is not in it, cannot all be placed after a search for that
one has failed. -/
theorem not_placeable_of_exhausted {person : P} {holder : S → Option P} {failed : Search P S}
    (valid : Valid fits slots holder) (isNew : ∀ slot, holder slot ≠ some person)
    (exhausted : Exhausted fits slots slots person ⟨[], holder⟩ failed) (place : P → S)
    (placed : ∀ other, (other = person ∨ ∃ slot, holder slot = some other) →
      place other ∈ slots ∧ fits other (place other) = true) :
    ∃ first second, (first = person ∨ ∃ slot, holder slot = some first) ∧
      (second = person ∨ ∃ slot, holder slot = some second) ∧ first ≠ second ∧
        place first = place second := by
  let owner := fun entry : Option S => (entry.bind holder).getD person
  have owned : ∀ slot ∈ failed.seen, ∃ prior, holder slot = some prior ∧
      owner (some slot) = prior ∧ ∀ other ∈ slots, fits prior other = true → other ∈ failed.seen := by
    intro slot seen
    obtain ⟨prior, held, fitting⟩ := exhausted.blocked slot seen List.not_mem_nil
    have held : holder slot = some prior := held
    refine ⟨prior, held, ?_, fitting⟩
    dsimp only [owner]
    rw [Option.bind_some, held, Option.getD_some]
  have known : ∀ entry ∈ failed.seen.toFinset.insertNone,
      owner entry = person ∨ ∃ slot, holder slot = some (owner entry) := by
    intro entry member
    cases entry with
    | none => exact Or.inl rfl
    | some slot =>
        obtain ⟨prior, held, same, -⟩ :=
          owned slot (List.mem_toFinset.mp (Finset.some_mem_insertNone.mp member))
        exact Or.inr ⟨slot, held.trans (congrArg some same.symm)⟩
  have inside : Set.MapsTo (fun entry => place (owner entry)) failed.seen.toFinset.insertNone
      (failed.seen.toFinset : Set S) := by
    intro entry member
    obtain ⟨offered, fit⟩ := placed (owner entry) (known entry member)
    rw [Finset.mem_coe, List.mem_toFinset]
    cases entry with
    | none => exact exhausted.fitting _ offered fit
    | some slot =>
        obtain ⟨prior, -, same, fitting⟩ :=
          owned slot (List.mem_toFinset.mp (Finset.some_mem_insertNone.mp member))
        dsimp only
        rw [same] at offered fit ⊢
        exact fitting _ offered fit
  have more : failed.seen.toFinset.card < failed.seen.toFinset.insertNone.card := by
    rw [Finset.card_insertNone]
    exact Nat.lt_succ_self _
  obtain ⟨first, firstMember, second, secondMember, apart, same⟩ :=
    Finset.exists_ne_map_eq_of_card_lt_of_maps_to more inside
  refine ⟨owner first, owner second, known first firstMember, known second secondMember, ?_, same⟩
  -- Slots have different holders, none of whom is the new person.
  intro equal
  have distinct : ∀ slot ∈ failed.seen, ∀ entry ∈ failed.seen.toFinset.insertNone,
      owner (some slot) = owner entry → some slot = entry := by
    intro slot seen entry member same
    obtain ⟨prior, held, found, -⟩ := owned slot seen
    rw [found] at same
    cases entry with
    | none => exact absurd (held.trans (congrArg some same)) (isNew slot)
    | some other =>
        obtain ⟨otherPrior, otherHeld, otherFound, -⟩ :=
          owned other (List.mem_toFinset.mp (Finset.some_mem_insertNone.mp member))
        rw [otherFound] at same
        exact congrArg some (valid.single prior slot other held (same ▸ otherHeld))
  cases first with
  | some slot =>
      exact apart (distinct slot (List.mem_toFinset.mp (Finset.some_mem_insertNone.mp firstMember))
        second secondMember equal)
  | none =>
      cases second with
      | none => exact apart rfl
      | some slot =>
          exact apart (distinct slot
            (List.mem_toFinset.mp (Finset.some_mem_insertNone.mp secondMember)) none firstMember
            equal.symm).symm

/-- People who can all be placed are. -/
theorem matchAll_complete {people : List P} {holder : S → Option P} (distinct : people.Nodup)
    (valid : Valid fits slots holder)
    (new : ∀ person ∈ people, ∀ slot, holder slot ≠ some person) (place : P → S)
    (placed : ∀ person, (person ∈ people ∨ ∃ slot, holder slot = some person) →
      place person ∈ slots ∧ fits person (place person) = true)
    (apart : ∀ first second, (first ∈ people ∨ ∃ slot, holder slot = some first) →
      (second ∈ people ∨ ∃ slot, holder slot = some second) → place first = place second →
        first = second) :
    ∃ final, matchAll fits slots people holder = some final := by
  induction people generalizing holder with
  | nil => exact ⟨holder, rfl⟩
  | cons person rest ih =>
      obtain ⟨notLater, later⟩ := List.nodup_cons.mp distinct
      have isNew := new person List.mem_cons_self
      have searches : Searches fits slots (augment fits slots (slots.length + 1)) :=
        rematch_augment _
      obtain ⟨-, searched⟩ := searches person ⟨[], holder⟩ valid
        fun slot holds => absurd holds (isNew slot)
      have known : ∀ other, (other = person ∨ ∃ slot, holder slot = some other) →
          other ∈ person :: rest ∨ ∃ slot, holder slot = some other :=
        fun other => Or.imp_left fun same => same ▸ List.mem_cons_self
      have enough : unseen slots (⟨[], holder⟩ : Search P S) < slots.length + 1 :=
        Nat.lt_succ_of_le List.countP_le_length
      have exhausts := @augment_exhausted _ _ _ fits slots _ person ⟨[], holder⟩ enough
      rw [matchAll]
      split
      · next found same =>
          rw [same] at searched
          obtain ⟨-, rematch⟩ := searched.resolve_left fun failed => Bool.noConfusion failed.1
          have before : ∀ other, (other ∈ rest ∨ ∃ slot, found.holder slot = some other) →
              other ∈ person :: rest ∨ ∃ slot, holder slot = some other := by
            rintro other (member | ⟨slot, holds⟩)
            · exact Or.inl (List.mem_cons_of_mem person member)
            · exact known other (rematch.known slot other holds)
          refine ih later (rematch.valid isNew) (fun other member slot holds => ?_)
            (fun other mem => placed other (before other mem))
            fun first second firstMem secondMem =>
              apart first second (before first firstMem) (before second secondMem)
          rcases rematch.known slot other holds with rfl | ⟨place, held⟩
          · exact notLater member
          · exact new other (List.mem_cons_of_mem _ member) place held
      · next failed same =>
          rw [same] at exhausts
          obtain ⟨first, second, firstKnown, secondKnown, different, together⟩ :=
            not_placeable_of_exhausted valid isNew (exhausts rfl) place
              fun other mem => placed other (known other mem)
          exact absurd (apart first second (known first firstKnown) (known second secondKnown)
            together) different

/-! ## Termination -/

/-- A function that does what the recursive search says. -/
def Solves (fits : P → S → Bool) (slots : List S) (assign : P → Search P S → Bool × Search P S) :
    Prop :=
  ∀ person search, assign person search = offer assign fits person slots search

variable {assign : P → Search P S → Bool × Search P S}

theorem augment_eq_of_solves (solves : Solves fits slots assign) {fuel : ℕ} (person : P)
    (search : Search P S) (enough : unseen slots search < fuel) :
    augment fits slots fuel person search = assign person search := by
  induction fuel generalizing person search with
  | zero => exact absurd enough (Nat.not_lt_zero _)
  | succ fuel ih =>
      rw [solves]
      exact offer_congr (seen_subset_augment fuel) ih person (List.Subset.refl slots) search
        (Nat.le_of_lt_succ enough)

/-- The recursion of the search has exactly one solution. -/
theorem solves_iff : Solves fits slots assign ↔ assign = augment fits slots (slots.length + 1) := by
  constructor
  · intro solves
    funext person search
    exact (augment_eq_of_solves solves person search
      (Nat.lt_succ_of_le List.countP_le_length)).symm
  · rintro rfl person search
    exact (augment_eq_of_le person search (Nat.le_succ _)).symm

end PlantManager.Matching

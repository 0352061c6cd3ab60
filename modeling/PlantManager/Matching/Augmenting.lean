import Mathlib

/-! # Matching by augmenting paths

Each person is offered the slots that fit, in their order. A slot that is held is taken if its
holder finds another one. What a successful search leaves is a matching of the people that held
slots before and the new one (`Matching.rematch_augment`), and more fuel than there
are slots changes nothing (`Matching.augment_eq_of_le`).
-/

namespace PlantManager.Matching

variable {P S : Type*}

/-- The slots that the search has looked at, and who holds each slot. -/
structure Search (P S : Type*) where
  seen : List S
  holder : S → Option P

variable [DecidableEq S]

def Search.visit (search : Search P S) (slot : S) : Search P S :=
  { search with seen := slot :: search.seen }

def Search.give (search : Search P S) (slot : S) (person : P) : Search P S :=
  { search with holder := Function.update search.holder slot (some person) }

/-- Offer a person the slots one after the other; `next` looks for another slot for a holder. -/
def offer (next : P → Search P S → Bool × Search P S) (fits : P → S → Bool) (person : P) :
    List S → Search P S → Bool × Search P S
  | [], search => (false, search)
  | slot :: rest, search =>
      if fits person slot = false ∨ slot ∈ search.seen then offer next fits person rest search
      else
        match search.holder slot with
        | none => (true, (search.visit slot).give slot person)
        | some prior =>
            match next prior (search.visit slot) with
            | (true, moved) => (true, moved.give slot person)
            | (false, failed) => offer next fits person rest failed

def augment (fits : P → S → Bool) (slots : List S) : ℕ → P → Search P S → Bool × Search P S
  | 0, _, search => (false, search)
  | fuel + 1, person, search => offer (augment fits slots fuel) fits person slots search

/-- Give each of the people a slot, or find that it is impossible. -/
def matchAll (fits : P → S → Bool) (slots : List S) :
    List P → (S → Option P) → Option (S → Option P)
  | [], holder => some holder
  | person :: rest, holder =>
      match augment fits slots (slots.length + 1) person ⟨[], holder⟩ with
      | (true, found) => matchAll fits slots rest found.holder
      | (false, _) => none

variable {fits : P → S → Bool} {slots : List S}

/-! ## Soundness -/

/-- Everyone holds at most one slot, and one that fits. -/
structure Valid (fits : P → S → Bool) (slots : List S) (holder : S → Option P) : Prop where
  single : ∀ person first second, holder first = some person → holder second = some person →
    first = second
  fitting : ∀ slot person, holder slot = some person → slot ∈ slots ∧ fits person slot = true

omit [DecidableEq S] in
theorem valid_none : Valid fits slots fun _ => none where
  single := by
    intro _ _ _ held
    cases held
  fitting := by
    intro _ _ held
    cases held

/-- A person has got a slot that was not seen before, and the others are still matched. -/
structure Rematch (fits : P → S → Bool) (slots : List S) (person : P) (seen : List S)
    (before after : S → Option P) : Prop where
  seat : ∃ slot, slot ∉ seen ∧ after slot = some person ∧
    ∀ other, after other = some person → other = slot ∨ before other = some person
  kept : ∀ slot ∈ seen, after slot = before slot
  single : ∀ other, other ≠ person → ∀ first second, after first = some other →
    after second = some other → first = second
  held : ∀ other, other ≠ person → (∃ slot, before slot = some other) →
    ∃ slot, after slot = some other
  known : ∀ slot other, after slot = some other → other = person ∨
    ∃ slot, before slot = some other
  fitting : ∀ slot other, after slot = some other → slot ∈ slots ∧ fits other slot = true

/-- What a search for a slot does: nothing but looking, or a rematch. -/
def Searches (fits : P → S → Bool) (slots : List S)
    (next : P → Search P S → Bool × Search P S) : Prop :=
  ∀ person search, Valid fits slots search.holder →
    (∀ slot, search.holder slot = some person → slot ∈ search.seen) →
    search.seen ⊆ (next person search).2.seen ∧
      (((next person search).1 = false ∧ (next person search).2.holder = search.holder) ∨
        ((next person search).1 = true ∧
          Rematch fits slots person search.seen search.holder (next person search).2.holder))

theorem rematch_free {person : P} {search : Search P S} {slot : S}
    (valid : Valid fits slots search.holder) (offered : slot ∈ slots)
    (fit : fits person slot = true) (unseen : slot ∉ search.seen) (free : search.holder slot = none) :
    Rematch fits slots person search.seen search.holder
      (Function.update search.holder slot (some person)) where
  seat := by
    refine ⟨slot, unseen, Function.update_self .., fun other holds => ?_⟩
    by_cases same : other = slot
    · exact .inl same
    · rw [Function.update_of_ne same] at holds
      exact .inr holds
  kept := by
    intro other member
    have apart : other ≠ slot := ne_of_mem_of_not_mem member unseen
    rw [Function.update_of_ne apart]
  single := by
    intro other different first second holdsFirst holdsSecond
    have notSlot : ∀ {place}, Function.update search.holder slot (some person) place =
        some other → place ≠ slot := by
      rintro place holds rfl
      rw [Function.update_self] at holds
      exact different (Option.some.inj holds).symm
    rw [Function.update_of_ne (notSlot holdsFirst)] at holdsFirst
    rw [Function.update_of_ne (notSlot holdsSecond)] at holdsSecond
    exact valid.single other first second holdsFirst holdsSecond
  held := by
    rintro other different ⟨place, holds⟩
    refine ⟨place, ?_⟩
    rwa [Function.update_of_ne fun same => by rw [same, free] at holds; cases holds]
  known := by
    intro place other holds
    by_cases same : place = slot
    · rw [same, Function.update_self] at holds
      exact .inl (Option.some.inj holds).symm
    · rw [Function.update_of_ne same] at holds
      exact .inr ⟨place, holds⟩
  fitting := by
    intro place other holds
    by_cases same : place = slot
    · rw [same, Function.update_self] at holds
      rw [same, ← Option.some.inj holds]
      exact ⟨offered, fit⟩
    · rw [Function.update_of_ne same] at holds
      exact valid.fitting place other holds

/-- The holder of a slot has moved to another one, and the person takes the slot. -/
theorem rematch_moved {person prior : P} {search : Search P S} {slot : S} {moved : S → Option P}
    (valid : Valid fits slots search.holder)
    (own : ∀ slot, search.holder slot = some person → slot ∈ search.seen)
    (fit : fits person slot = true) (unseen : slot ∉ search.seen)
    (holds : search.holder slot = some prior)
    (rematch : Rematch fits slots prior (slot :: search.seen) search.holder moved) :
    Rematch fits slots person search.seen search.holder
      (Function.update moved slot (some person)) := by
  have apart : prior ≠ person := fun same => unseen (own slot (same ▸ holds))
  have stays : moved slot = some prior := (rematch.kept slot List.mem_cons_self).trans holds
  obtain ⟨seat, seatUnseen, seated, seats⟩ := rematch.seat
  have seatApart : seat ≠ slot := fun same => seatUnseen (same ▸ List.mem_cons_self)
  have notSlot : ∀ {place other}, other ≠ person →
      Function.update moved slot (some person) place = some other → place ≠ slot := by
    rintro place other different held rfl
    rw [Function.update_self] at held
    exact different (Option.some.inj held).symm
  exact {
    seat := by
      refine ⟨slot, unseen, Function.update_self .., fun other held => ?_⟩
      by_cases same : other = slot
      · exact .inl same
      · rw [Function.update_of_ne same] at held
        -- Someone who held no slot before would be the holder that moved.
        rcases rematch.known other person held with isPrior | ⟨place, before⟩
        · exact absurd isPrior.symm apart
        · have kept := (rematch.kept place (List.mem_cons_of_mem _ (own place before))).trans before
          have same := rematch.single person apart.symm other place held kept
          exact .inr (same ▸ before)
    kept := by
      intro other member
      have apart : other ≠ slot := ne_of_mem_of_not_mem member unseen
      rw [Function.update_of_ne apart]
      exact rematch.kept other (List.mem_cons_of_mem _ member)
    single := by
      intro other different first second holdsFirst holdsSecond
      have firstApart := notSlot different holdsFirst
      have secondApart := notSlot different holdsSecond
      rw [Function.update_of_ne firstApart] at holdsFirst
      rw [Function.update_of_ne secondApart] at holdsSecond
      by_cases isPrior : other = prior
      · -- The slot that the holder had before is the person's now.
        have onlySeat : ∀ place, place ≠ slot → moved place = some prior → place = seat := by
          intro place placeApart held
          rcases seats place held with same | before
          · exact same
          · exact absurd (valid.single prior place slot before holds) placeApart
        rw [isPrior] at holdsFirst holdsSecond
        rw [onlySeat first firstApart holdsFirst, onlySeat second secondApart holdsSecond]
      · exact rematch.single other isPrior first second holdsFirst holdsSecond
    held := by
      rintro other different before
      by_cases isPrior : other = prior
      · exact ⟨seat, by rw [Function.update_of_ne seatApart, isPrior, seated]⟩
      · obtain ⟨place, held⟩ := rematch.held other isPrior before
        refine ⟨place, ?_⟩
        rwa [Function.update_of_ne fun same => by
          rw [same, stays] at held
          exact isPrior (Option.some.inj held).symm]
    known := by
      intro place other held
      by_cases same : place = slot
      · rw [same, Function.update_self] at held
        exact .inl (Option.some.inj held).symm
      · rw [Function.update_of_ne same] at held
        rcases rematch.known place other held with rfl | before
        · exact .inr ⟨slot, holds⟩
        · exact .inr before
    fitting := by
      intro place other held
      by_cases same : place = slot
      · rw [same, Function.update_self] at held
        rw [same, ← Option.some.inj held]
        exact ⟨(valid.fitting slot prior holds).1, fit⟩
      · rw [Function.update_of_ne same] at held
        exact rematch.fitting place other held }

omit [DecidableEq S] in
/-- A rematch that avoids more slots. -/
theorem Rematch.of_subset {person : P} {seen more : List S} {before after : S → Option P}
    (rematch : Rematch fits slots person more before after) (subset : seen ⊆ more) :
    Rematch fits slots person seen before after :=
  { rematch with
    seat := by
      obtain ⟨slot, unseen, rest⟩ := rematch.seat
      exact ⟨slot, fun member => unseen (subset member), rest⟩
    kept := fun slot member => rematch.kept slot (subset member) }

variable {next : P → Search P S → Bool × Search P S}

theorem searches_offer (searches : Searches fits slots next) {offered : List S}
    (subset : offered ⊆ slots) (person : P) (search : Search P S)
    (valid : Valid fits slots search.holder)
    (own : ∀ slot, search.holder slot = some person → slot ∈ search.seen) :
    search.seen ⊆ (offer next fits person offered search).2.seen ∧
      (((offer next fits person offered search).1 = false ∧
          (offer next fits person offered search).2.holder = search.holder) ∨
        ((offer next fits person offered search).1 = true ∧
          Rematch fits slots person search.seen search.holder
            (offer next fits person offered search).2.holder)) := by
  induction offered generalizing search with
  | nil => exact ⟨fun _ member => member, .inl ⟨rfl, rfl⟩⟩
  | cons slot rest ih =>
      have later := List.subset_of_cons_subset subset
      rw [offer]
      split
      · exact ih later search valid own
      · rename_i takes
        obtain ⟨fit, unseen⟩ := not_or.mp takes
        rw [Bool.not_eq_false] at fit
        split
        · rename_i free
          refine ⟨List.subset_cons_self .., .inr ⟨rfl, ?_⟩⟩
          exact rematch_free valid (subset List.mem_cons_self) fit unseen free
        · rename_i prior holds
          obtain ⟨grows, searched⟩ := searches prior (search.visit slot) valid fun place held =>
            valid.single prior slot place holds held ▸ List.mem_cons_self
          have fromStart := List.Subset.trans (List.subset_cons_self slot search.seen) grows
          split
          · rename_i moved found
            rw [found] at searched fromStart
            obtain ⟨-, rematch⟩ := searched.resolve_left fun failed => Bool.noConfusion failed.1
            exact ⟨fromStart, .inr ⟨rfl, rematch_moved valid own fit unseen holds rematch⟩⟩
          · rename_i failed found
            rw [found] at searched fromStart
            obtain ⟨-, same⟩ := searched.resolve_right fun moved => Bool.noConfusion moved.1
            obtain ⟨more, result⟩ := ih later failed (same ▸ valid) fun place held =>
              fromStart (own place (same ▸ held))
            refine ⟨List.Subset.trans fromStart more, ?_⟩
            rw [same] at result
            exact result.imp_right (And.imp_right fun rematch => rematch.of_subset fromStart)

theorem rematch_augment (fuel : ℕ) : Searches fits slots (augment fits slots fuel) := by
  induction fuel with
  | zero => exact fun _ _ _ _ => ⟨fun _ member => member, .inl ⟨rfl, rfl⟩⟩
  | succ fuel ih => exact searches_offer ih (List.Subset.refl slots)

omit [DecidableEq S] in
/-- A new person leaves a valid matching of the people before and the new one. -/
theorem Rematch.valid {person : P} {before after : S → Option P}
    (rematch : Rematch fits slots person [] before after)
    (new : ∀ slot, before slot ≠ some person) : Valid fits slots after where
  single := by
    intro other first second holdsFirst holdsSecond
    by_cases same : other = person
    · obtain ⟨seat, -, -, seats⟩ := rematch.seat
      rw [same] at holdsFirst holdsSecond
      rw [(seats first holdsFirst).resolve_right (new first),
        (seats second holdsSecond).resolve_right (new second)]
    · exact rematch.single other same first second holdsFirst holdsSecond
  fitting := rematch.fitting

theorem matchAll_sound {people : List P} {holder final : S → Option P} (nodup : people.Nodup)
    (valid : Valid fits slots holder)
    (new : ∀ person ∈ people, ∀ slot, holder slot ≠ some person)
    (found : matchAll fits slots people holder = some final) :
    Valid fits slots final ∧
      ∀ person, (person ∈ people ∨ ∃ slot, holder slot = some person) →
        ∃ slot, final slot = some person := by
  induction people generalizing holder with
  | nil =>
      obtain rfl := Option.some.inj found
      exact ⟨valid, fun person known => known.resolve_left List.not_mem_nil⟩
  | cons person rest ih =>
      obtain ⟨notLater, later⟩ := List.nodup_cons.mp nodup
      have isNew := new person List.mem_cons_self
      have searches : Searches fits slots (augment fits slots (slots.length + 1)) :=
        rematch_augment _
      obtain ⟨-, searched⟩ := searches person ⟨[], holder⟩ valid
        fun slot holds => absurd holds (isNew slot)
      rw [matchAll] at found
      split at found
      · rename_i next placed
        rw [placed] at searched
        obtain ⟨-, rematch⟩ := searched.resolve_left fun failed => Bool.noConfusion failed.1
        obtain ⟨matched, all⟩ := ih later (rematch.valid isNew) (fun other member slot holds => by
          rcases rematch.known slot other holds with rfl | ⟨place, before⟩
          · exact notLater member
          · exact new other (List.mem_cons_of_mem _ member) place before) found
        refine ⟨matched, fun other known => all other ?_⟩
        by_cases same : other = person
        · obtain ⟨seat, -, seated, -⟩ := rematch.seat
          exact .inr ⟨seat, same ▸ seated⟩
        · rcases known with member | before
          · exact .inl (List.mem_of_ne_of_mem same member)
          · exact .inr (rematch.held other same before)
      · cases found

/-! ## Fuel -/

def unseen (slots : List S) (search : Search P S) : ℕ :=
  slots.countP fun slot => slot ∉ search.seen

theorem unseen_le {slots : List S} {before after : Search P S} (grows : before.seen ⊆ after.seen) :
    unseen slots after ≤ unseen slots before := by
  apply List.countP_mono_left
  intro slot _ outside
  exact decide_eq_true fun member => of_decide_eq_true outside (grows member)

theorem unseen_visit_lt {slots : List S} {search : Search P S} {slot : S} (offered : slot ∈ slots)
    (new : slot ∉ search.seen) : unseen slots (search.visit slot) < unseen slots search := by
  induction slots with
  | nil => exact absurd offered List.not_mem_nil
  | cons first rest ih =>
      have visited : unseen rest (search.visit slot) ≤ unseen rest search :=
        unseen_le (List.subset_cons_self slot search.seen)
      unfold unseen at *
      rw [List.countP_cons, List.countP_cons]
      by_cases same : first = slot
      · subst same
        rw [if_neg (by simp [Search.visit]), if_pos (decide_eq_true new)]
        omega
      · have fewer := ih ((List.mem_cons.mp offered).resolve_left fun isFirst => same isFirst.symm)
        have mark : decide (first ∉ (search.visit slot).seen) = decide (first ∉ search.seen) := by
          simp [Search.visit, same]
        rw [mark]
        omega

theorem seen_subset_offer (grows : ∀ person search, search.seen ⊆ (next person search).2.seen)
    (person : P) (offered : List S) (search : Search P S) :
    search.seen ⊆ (offer next fits person offered search).2.seen := by
  induction offered generalizing search with
  | nil => exact fun _ member => member
  | cons slot rest ih =>
      rw [offer]
      split
      · exact ih search
      · split
        · exact List.subset_cons_self ..
        · rename_i prior _
          have visited := List.Subset.trans (List.subset_cons_self slot search.seen)
            (grows prior (search.visit slot))
          split
          · rename_i moved found
            rw [found] at visited
            exact visited
          · rename_i failed found
            rw [found] at visited
            exact List.Subset.trans visited (ih failed)

theorem seen_subset_augment (fuel : ℕ) (person : P) (search : Search P S) :
    search.seen ⊆ (augment fits slots fuel person search).2.seen := by
  induction fuel generalizing person search with
  | zero => exact fun _ member => member
  | succ fuel ih => exact seen_subset_offer ih person slots search

/-- Searches that agree where fewer slots are unseen offer the same. -/
theorem offer_congr {next other : P → Search P S → Bool × Search P S} {bound : ℕ}
    (grows : ∀ person search, search.seen ⊆ (next person search).2.seen)
    (agree : ∀ person search, unseen slots search < bound → next person search = other person search)
    (person : P) {offered : List S} (subset : offered ⊆ slots) (search : Search P S)
    (few : unseen slots search ≤ bound) :
    offer next fits person offered search = offer other fits person offered search := by
  induction offered generalizing search with
  | nil => rfl
  | cons slot rest ih =>
      have later := List.subset_of_cons_subset subset
      rw [offer, offer]
      split
      · exact ih later search few
      · rename_i takes
        have fewer := unseen_visit_lt (subset List.mem_cons_self) (not_or.mp takes).2
        split
        · rfl
        · rename_i prior _
          have visited : unseen slots (next prior (search.visit slot)).2 ≤
              unseen slots (search.visit slot) := unseen_le (grows prior (search.visit slot))
          rw [← agree prior (search.visit slot) (by omega)]
          split
          · rfl
          · rename_i failed found
            rw [found] at visited
            exact ih later failed (by dsimp only at visited; omega)

theorem augment_succ {fuel : ℕ} (person : P) (search : Search P S)
    (enough : unseen slots search < fuel) :
    augment fits slots fuel person search = augment fits slots (fuel + 1) person search := by
  induction fuel generalizing person search with
  | zero => exact absurd enough (Nat.not_lt_zero _)
  | succ fuel ih =>
      exact offer_congr (seen_subset_augment fuel) (fun other search few => ih other search few)
        person (List.Subset.refl slots) search (Nat.le_of_lt_succ enough)

/-- More fuel than `matchAll` gives each search does not change what it finds. -/
theorem augment_eq_of_le {fuel : ℕ} (person : P) (search : Search P S)
    (enough : slots.length + 1 ≤ fuel) :
    augment fits slots fuel person search = augment fits slots (slots.length + 1) person search := by
  induction fuel, enough using Nat.le_induction with
  | base => rfl
  | succ fuel enough ih =>
      have few : unseen slots search < fuel := Nat.lt_of_le_of_lt List.countP_le_length enough
      rw [← augment_succ person search few, ih]

end PlantManager.Matching

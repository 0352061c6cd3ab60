import Mathlib

/-! # Maximal runs of a list

Items that belong somewhere are grouped with their neighbours that belong to the same place
(`Timeline.splitRuns`). The groups are what remains of the list without the other
items, each is a piece of the list, and between two neighbours lies another item, or they belong to
different places (`Timeline.Runs.neighbours`).
-/

namespace PlantManager.Timeline

variable {α κ : Type*}

/-- A list and its groups: runs of items with one key, as long as they can be. -/
inductive Runs (key : α → Option κ) : List α → List (List α) → Prop
  | done : Runs key [] []
  | skip {item rest groups} (idle : key item = none) (later : Runs key rest groups) :
      Runs key (item :: rest) groups
  | run {group rest groups place} (some_ : group ≠ [])
      (same : ∀ item ∈ group, key item = some place)
      (ends : ∀ item, rest.head? = some item → key item ≠ some place)
      (later : Runs key rest groups) : Runs key (group ++ rest) (group :: groups)

namespace Runs

variable {key : α → Option κ} {items : List α} {groups : List (List α)}

theorem flatten_eq (runs : Runs key items groups) :
    groups.flatten = items.filter fun item => (key item).isSome := by
  induction runs with
  | done => rfl
  | skip idle _ ih => rw [List.filter_cons_of_neg (by simp [idle]), ih]
  | @run group rest _ _ _ same _ _ ih =>
      rw [List.flatten_cons, ih, List.filter_append]
      congr 1
      refine (List.filter_eq_self.mpr fun item member => ?_).symm
      rw [same item member]
      rfl

theorem of_mem (runs : Runs key items groups) {group : List α} (member : group ∈ groups) :
    group ≠ [] ∧ group <:+: items ∧ ∃ place, ∀ item ∈ group, key item = some place := by
  induction runs with
  | done => exact absurd member List.not_mem_nil
  | skip _ _ ih =>
      obtain ⟨some_, inside, same⟩ := ih member
      exact ⟨some_, inside.trans (List.suffix_cons ..).isInfix, same⟩
  | @run first rest _ place some_ same _ _ ih =>
      rcases List.mem_cons.mp member with rfl | later
      · exact ⟨some_, (List.prefix_append group rest).isInfix, place, same⟩
      · obtain ⟨nonempty, inside, place, same⟩ := ih later
        exact ⟨nonempty, inside.trans (List.suffix_append first rest).isInfix, place, same⟩

/-- The first group comes after items that belong nowhere. -/
theorem first_group {group : List α} (runs : Runs key items (group :: groups)) :
    ∃ idle rest place, items = idle ++ group ++ rest ∧ (∀ item ∈ idle, key item = none) ∧
      Runs key rest groups ∧ group ≠ [] ∧ (∀ item ∈ group, key item = some place) ∧
      ∀ item, rest.head? = some item → key item ≠ some place := by
  generalize listed : group :: groups = all at runs
  induction runs with
  | done => cases listed
  | @skip item rest _ idle _ ih =>
      obtain ⟨before, after, place, rfl, none_, others⟩ := ih listed
      exact ⟨item :: before, after, place, rfl, List.forall_mem_cons.mpr ⟨idle, none_⟩, others⟩
  | @run first rest _ place some_ same ends later _ =>
      obtain ⟨rfl, rfl⟩ := List.cons.inj listed
      exact ⟨[], rest, place, rfl, fun _ member => absurd member List.not_mem_nil, later, some_, same,
        ends⟩

/-- Between two neighbours lies another item, or they belong to different places. -/
theorem neighbours (runs : Runs key items groups) {before after : List (List α)}
    {first second : List α} (listed : groups = before ++ first :: second :: after) :
    ∃ left between right, items = left ++ first ++ between ++ second ++ right ∧
      (∀ item ∈ between, key item = none) ∧
      (between = [] → ∀ one ∈ first, ∀ other ∈ second, key one ≠ key other) := by
  subst listed
  induction before generalizing items with
  | nil =>
      obtain ⟨idle, rest, place, rfl, -, later, -, same, ends⟩ := runs.first_group
      obtain ⟨between, right, other, rfl, none_, -, some_, others, -⟩ := later.first_group
      refine ⟨idle, between, right, by simp only [List.append_assoc], none_, ?_⟩
      rintro rfl one oneMember item itemMember
      rw [same one oneMember, others item itemMember]
      obtain ⟨head, tail, rfl⟩ := List.exists_cons_of_ne_nil some_
      have different := ends head rfl
      rw [others head List.mem_cons_self] at different
      exact Ne.symm different
  | cons group before ih =>
      obtain ⟨idle, rest, place, rfl, -, later, -⟩ := runs.first_group
      obtain ⟨left, between, right, rfl, others⟩ := ih later
      exact ⟨idle ++ group ++ left, between, right, by simp only [List.append_assoc], others⟩

end Runs

/-! ## Splitting -/

theorem runs_close {key : α → Option κ} {current rest : List α} {groups : List (List α)} {place : κ}
    (same : ∀ item ∈ current, key item = some place)
    (ends : ∀ item, rest.head? = some item → key item ≠ some place)
    (later : Runs key rest groups) :
    Runs key (current ++ rest) ((if current = [] then [] else [current]) ++ groups) := by
  by_cases empty : current = []
  · subst empty
    exact later
  · rw [if_neg empty]
    exact .run empty same ends later

variable [DecidableEq κ] (key : α → Option κ)

/-- The groups of a list whose first group has begun. -/
def splitRuns : List α → List α → List (List α)
  | current, [] => if current = [] then [] else [current]
  | current, item :: rest =>
      match key item with
      | none => (if current = [] then [] else [current]) ++ splitRuns [] rest
      | some place =>
          if current ≠ [] ∧ some place ≠ current.head?.bind key then
            current :: splitRuns [item] rest
          else splitRuns (current ++ [item]) rest

variable {key}

theorem runs_splitRuns {current rest : List α} {place : κ}
    (same : ∀ item ∈ current, key item = some place) :
    Runs key (current ++ rest) (splitRuns key current rest) := by
  induction rest generalizing current place with
  | nil =>
      rw [splitRuns, ← List.append_nil (if current = [] then [] else [current])]
      exact runs_close same nofun .done
  | cons item rest ih =>
      rw [splitRuns]
      split
      · next idle =>
          have later : Runs key ([] ++ rest) (splitRuns key [] rest) :=
            @ih [] place fun _ member => absurd member List.not_mem_nil
          refine runs_close same ?_ (.skip idle later)
          rintro other ⟨⟩
          rw [idle]
          exact nofun
      · next here found =>
          have alone : ∀ other ∈ [item], key other = some here := by
            intro other member
            rw [List.mem_singleton.mp member, found]
          have headed : current ≠ [] → current.head?.bind key = some place := by
            intro some_
            obtain ⟨head, tail, rfl⟩ := List.exists_cons_of_ne_nil some_
            exact same head List.mem_cons_self
          split
          · next moved =>
              refine .run moved.1 same ?_ (ih alone)
              rintro other ⟨⟩
              rw [found, ← headed moved.1]
              exact moved.2
          · next stays =>
              rw [List.append_cons]
              refine @ih (current ++ [item]) here fun other member => ?_
              rcases List.mem_append.mp member with earlier | last
              · have some_ := List.ne_nil_of_mem earlier
                have kept := not_not.mp fun moved => stays ⟨some_, moved⟩
                rw [same other earlier, ← headed some_, ← kept]
              · exact alone other last

end PlantManager.Timeline

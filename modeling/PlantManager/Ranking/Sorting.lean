import Mathlib

/-! # Stable sorting by a key

`Ranking.sortBy` sorts a list by a key and keeps the order of items with
equal keys. Sorted lists of keys are compared lexicographically;
`Ranking.sortKeys_append_le` shows that adding the same keys to two lists
of equal length keeps the comparison of their sorted lists.
-/

namespace PlantManager.Ranking

section SortBy

variable {α κ : Type*} [LinearOrder κ] (key : α → κ)

/-- Sort by a key, keeping the order of items with equal keys. -/
def sortBy (items : List α) : List α := items.insertionSort fun first second => key first ≤ key second

variable (items : List α) (keys : List κ)

theorem sortBy_perm : (sortBy key items).Perm items :=
  List.perm_insertionSort _ items

@[simp] theorem mem_sortBy {items : List α} {item : α} : item ∈ sortBy key items ↔ item ∈ items :=
  (sortBy_perm key items).mem_iff

@[simp] theorem length_sortBy : (sortBy key items).length = items.length :=
  (sortBy_perm key items).length_eq

@[simp] theorem sortBy_nil : sortBy key [] = [] := rfl

theorem pairwise_sortBy : (sortBy key items).Pairwise fun first second => key first ≤ key second :=
  @List.pairwise_insertionSort _ _ _ ⟨fun first second => le_total (key first) (key second)⟩
    ⟨fun _ _ _ before after => before.trans after⟩ items

/-- The keys of a sorted list in order. -/
def sortKeys (keys : List κ) : List κ := keys.insertionSort (· ≤ ·)

theorem sortKeys_perm : (sortKeys keys).Perm keys := List.perm_insertionSort _ keys

@[simp] theorem length_sortKeys : (sortKeys keys).length = keys.length :=
  (sortKeys_perm keys).length_eq

theorem map_sortBy : (sortBy key items).map key = sortKeys (items.map key) :=
  List.map_insertionSort _ _ key items fun _ _ _ _ => Iff.rfl

theorem pairwise_sortKeys : (sortKeys keys).Pairwise (· ≤ ·) :=
  List.pairwise_insertionSort _ keys

theorem sortKeys_eq_of_perm {first second : List κ} (perm : first.Perm second) :
    sortKeys first = sortKeys second :=
  (((sortKeys_perm first).trans perm).trans (sortKeys_perm second).symm).eq_of_pairwise
    (fun _ _ _ _ below above => le_antisymm below above) (pairwise_sortKeys first)
      (pairwise_sortKeys second)

theorem sortKeys_eq_self {keys : List κ} (ordered : keys.Pairwise (· ≤ ·)) : sortKeys keys = keys :=
  ordered.insertionSort_eq

/-- Items of distinct keys have one order. -/
theorem sortBy_eq_of_perm {first second : List α} (distinct : (first.map key).Nodup)
    (perm : first.Perm second) : sortBy key first = sortBy key second := by
  refine (((sortBy_perm key first).trans perm).trans (sortBy_perm key second).symm).eq_of_pairwise
    ?_ (pairwise_sortBy key first) (pairwise_sortBy key second)
  intro item other member otherMember below above
  have same := le_antisymm below above
  rw [mem_sortBy] at member otherMember
  exact List.inj_on_of_nodup_map distinct member (perm.mem_iff.mpr otherMember) same

end SortBy

section Lexicographic

variable {κ : Type*} [LinearOrder κ]

theorem cons_le_cons_iff {first second : κ} {tail other : List κ} :
    first :: tail ≤ second :: other ↔ first < second ∨ first = second ∧ tail ≤ other := by
  rw [le_iff_lt_or_eq, le_iff_lt_or_eq, List.cons_lt_cons_iff, List.cons.injEq]
  tauto

/-- Inserting one key into two lists of equal length keeps their comparison. -/
theorem orderedInsert_le {first second : List κ} (sameLength : first.length = second.length)
    (below : first ≤ second) (added : κ) :
    first.orderedInsert (· ≤ ·) added ≤ second.orderedInsert (· ≤ ·) added := by
  induction first generalizing second with
  | nil =>
      obtain rfl := List.length_eq_zero_iff.mp sameLength.symm
      exact le_rfl
  | cons head tail ih =>
      cases second with
      | nil => simp at sameLength
      | cons other rest =>
          have lengths : tail.length = rest.length := Nat.succ.inj sameLength
          rcases cons_le_cons_iff.mp below with smaller | ⟨rfl, tails⟩
          · by_cases first : added ≤ head
            · rw [List.orderedInsert_cons, if_pos first, List.orderedInsert_cons,
                if_pos (first.trans smaller.le)]
              exact cons_le_cons_iff.mpr (Or.inr ⟨rfl, below⟩)
            · rw [List.orderedInsert_cons, if_neg first, List.orderedInsert_cons]
              by_cases second : added ≤ other
              · rw [if_pos second]
                exact cons_le_cons_iff.mpr (Or.inl (not_le.mp first))
              · rw [if_neg second]
                exact cons_le_cons_iff.mpr (Or.inl smaller)
          · by_cases first : added ≤ head
            · rw [List.orderedInsert_cons, if_pos first, List.orderedInsert_cons, if_pos first]
              exact cons_le_cons_iff.mpr (Or.inr ⟨rfl, below⟩)
            · rw [List.orderedInsert_cons, if_neg first, List.orderedInsert_cons, if_neg first]
              exact cons_le_cons_iff.mpr (Or.inr ⟨rfl, ih lengths tails⟩)

/-- Adding the same keys to two lists of equal length keeps the comparison of
their sorted lists. -/
theorem sortKeys_append_le {first second : List κ} (sameLength : first.length = second.length)
    (below : sortKeys first ≤ sortKeys second) (added : List κ) :
    sortKeys (first ++ added) ≤ sortKeys (second ++ added) := by
  rw [sortKeys_eq_of_perm (@List.perm_append_comm _ first added),
    sortKeys_eq_of_perm (@List.perm_append_comm _ second added)]
  induction added with
  | nil => exact below
  | cons key rest ih =>
      have lengths : (sortKeys (rest ++ first)).length = (sortKeys (rest ++ second)).length := by
        simp [sameLength]
      exact orderedInsert_le lengths ih key

end Lexicographic

end PlantManager.Ranking

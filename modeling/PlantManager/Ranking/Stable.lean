import PlantManager.Ranking.Sorting

/-! # Sorting is stable

Items of one key keep their order (`Ranking.filter_key_sortBy`). A sorted list is
determined by the items of each key in their order (`Ranking.eq_of_filter_key_eq`), so
sorting commutes with leaving items out.
-/

namespace PlantManager.Ranking

variable {α κ : Type*} [LinearOrder κ] (key : α → κ)

theorem filter_key_sortBy (items : List α) (value : κ) :
    (sortBy key items).filter (fun item => key item = value) =
      items.filter fun item => key item = value := by
  have level : (items.filter fun item => key item = value).Pairwise fun first second =>
      key first ≤ key second := by
    refine List.pairwise_of_forall_mem_list fun first isFirst second isSecond => ?_
    have firstKey := of_decide_eq_true (List.mem_filter.mp isFirst).2
    have secondKey := of_decide_eq_true (List.mem_filter.mp isSecond).2
    exact (firstKey.trans secondKey.symm).le
  have inside : (items.filter fun item => key item = value).Sublist (sortBy key items) :=
    List.sublist_insertionSort level List.filter_sublist
  have filtered := inside.filter fun item => key item = value
  rw [List.filter_filter] at filtered
  simp only [Bool.and_self] at filtered
  refine (filtered.eq_of_length ?_).symm
  exact ((sortBy_perm key items).filter _).length_eq.symm

variable {key}

theorem eq_of_filter_key_eq {first second : List α}
    (firstSorted : first.Pairwise fun one other => key one ≤ key other)
    (secondSorted : second.Pairwise fun one other => key one ≤ key other)
    (same : ∀ value, first.filter (fun item => key item = value) =
      second.filter fun item => key item = value) : first = second := by
  have members : ∀ item, item ∈ first ↔ item ∈ second := by
    intro item
    have filtered : item ∈ first.filter (fun other => key other = key item) ↔
        item ∈ second.filter fun other => key other = key item := by rw [same]
    simpa only [List.mem_filter, decide_true, and_true] using filtered
  induction first generalizing second with
  | nil =>
      cases second with
      | nil => rfl
      | cons head tail => exact absurd ((members head).mpr List.mem_cons_self) List.not_mem_nil
  | cons head rest ih =>
      cases second with
      | nil => exact absurd ((members head).mp List.mem_cons_self) List.not_mem_nil
      | cons other others =>
          rw [List.pairwise_cons] at firstSorted secondSorted
          have below : key other ≤ key head := by
            rcases List.mem_cons.mp ((members head).mp List.mem_cons_self) with rfl | later
            · exact le_rfl
            · exact secondSorted.1 head later
          have above : key head ≤ key other := by
            rcases List.mem_cons.mp ((members other).mpr List.mem_cons_self) with rfl | later
            · exact le_rfl
            · exact firstSorted.1 other later
          have heads := same (key head)
          rw [List.filter_cons, List.filter_cons, if_pos (decide_eq_true rfl),
            if_pos (decide_eq_true (le_antisymm below above))] at heads
          obtain ⟨rfl, -⟩ := List.cons.inj heads
          have tails : ∀ value, rest.filter (fun item => key item = value) =
              others.filter fun item => key item = value := by
            intro value
            have both := same value
            rw [List.filter_cons, List.filter_cons] at both
            split at both
            · exact (List.cons.inj both).2
            · exact both
          refine congrArg (head :: ·) (ih firstSorted.2 secondSorted.2 tails fun item => ?_)
          have filtered : item ∈ rest.filter (fun other => key other = key item) ↔
              item ∈ others.filter fun other => key other = key item := by rw [tails]
          simpa only [List.mem_filter, decide_true, and_true] using filtered

theorem sortBy_eq_of_filter_key_eq {first second : List α}
    (same : ∀ value, first.filter (fun item => key item = value) =
      second.filter fun item => key item = value) : sortBy key first = sortBy key second := by
  refine eq_of_filter_key_eq (pairwise_sortBy key first) (pairwise_sortBy key second) fun value => ?_
  rw [filter_key_sortBy, filter_key_sortBy, same]

theorem sortBy_eq_self {items : List α}
    (sorted : items.Pairwise fun first second => key first ≤ key second) : sortBy key items = items :=
  eq_of_filter_key_eq (pairwise_sortBy key items) sorted (filter_key_sortBy key items)

/-- Leaving items out commutes with sorting. -/
theorem filter_sortBy (test : α → Bool) (items : List α) :
    (sortBy key items).filter test = sortBy key (items.filter test) := by
  refine eq_of_filter_key_eq ((pairwise_sortBy key items).filter test)
    (pairwise_sortBy key _) fun value => ?_
  rw [filter_key_sortBy, List.filter_comm, filter_key_sortBy, List.filter_comm]

end PlantManager.Ranking

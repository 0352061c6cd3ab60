import Mathlib

/-! # Windows of one width

A cursor goes on by one width until it comes to the edge (`Timeline.windowStarts`). Every
moment from the cursor to the edge is in one of the windows (`Timeline.windowOf`), and
what is added up window by window is added up once (`Timeline.sum_windows`).
-/

namespace PlantManager.Timeline

/-- The starts of the windows that begin before the edge. -/
def windowStarts (width : ℤ) (positive : 0 < width) (edge cursor : ℤ) : List ℤ :=
  if cursor < edge then cursor :: windowStarts width positive edge (cursor + width) else []
termination_by (edge - cursor).toNat
decreasing_by omega

/-- The start of the window that a moment is in. -/
def windowOf (width cursor moment : ℤ) : ℤ := cursor + (moment - cursor) / width * width

variable {width : ℤ} {positive : 0 < width} {edge cursor start moment : ℤ}

theorem windowStarts_of_le (ended : edge ≤ cursor) :
    windowStarts width positive edge cursor = [] := by
  unfold windowStarts
  exact if_neg ended.not_gt

theorem mem_windowStarts :
    start ∈ windowStarts width positive edge cursor ↔
      cursor ≤ start ∧ start < edge ∧ width ∣ start - cursor := by
  fun_induction windowStarts width positive edge cursor with
  | case1 cursor before ih =>
      rw [List.mem_cons, ih]
      have same : start - cursor = start - (cursor + width) + width := by ring
      constructor
      · rintro (rfl | ⟨after, early, divides⟩)
        · exact ⟨le_rfl, before, by rw [sub_self]; exact dvd_zero width⟩
        · refine ⟨by omega, early, ?_⟩
          rw [same]
          exact dvd_add divides dvd_rfl
      · rintro ⟨after, early, divides⟩
        by_cases first : start = cursor
        · exact .inl first
        · have far := Int.le_of_dvd (by omega : 0 < start - cursor) divides
          refine .inr ⟨by omega, early, ?_⟩
          rw [same] at divides
          exact (dvd_add_left dvd_rfl).mp divides
  | case2 cursor ended =>
      simp only [List.not_mem_nil, false_iff]
      rintro ⟨after, early, -⟩
      omega

theorem pairwise_windowStarts :
    (windowStarts width positive edge cursor).Pairwise fun first second =>
      first + width ≤ second := by
  fun_induction windowStarts width positive edge cursor with
  | case1 cursor before ih =>
      exact List.pairwise_cons.mpr ⟨fun start member => (mem_windowStarts.mp member).1, ih⟩
  | case2 cursor ended => exact .nil

theorem windowOf_le (positive : 0 < width) : windowOf width cursor moment ≤ moment := by
  have below := Int.ediv_mul_le (moment - cursor) positive.ne'
  unfold windowOf
  omega

theorem lt_windowOf_add (positive : 0 < width) : moment < windowOf width cursor moment + width := by
  have above := Int.lt_ediv_add_one_mul_self (moment - cursor) positive
  rw [add_mul, one_mul] at above
  unfold windowOf
  omega

theorem le_windowOf (positive : 0 < width) (after : cursor ≤ moment) :
    cursor ≤ windowOf width cursor moment := by
  have nonneg := mul_nonneg (Int.ediv_nonneg (sub_nonneg.mpr after) positive.le) positive.le
  unfold windowOf
  omega

theorem dvd_windowOf_sub : width ∣ windowOf width cursor moment - cursor :=
  ⟨(moment - cursor) / width, by unfold windowOf; ring⟩

/-- Only one window holds a moment. -/
theorem eq_windowOf (positive : 0 < width) (divides : width ∣ start - cursor)
    (begun : start ≤ moment) (going : moment < start + width) :
    start = windowOf width cursor moment := by
  obtain ⟨steps, same⟩ := divides
  have count : (moment - cursor) / width = steps := by
    rw [Int.ediv_eq_iff_of_pos positive]
    rw [mul_comm steps width]
    exact ⟨by omega, by omega⟩
  unfold windowOf
  rw [count, mul_comm]
  omega

theorem mem_windowStarts_and_holds_iff :
    (start ∈ windowStarts width positive edge cursor ∧ start ≤ moment ∧ moment < start + width) ↔
      start = windowOf width cursor moment ∧ cursor ≤ moment ∧
        windowOf width cursor moment < edge := by
  rw [mem_windowStarts]
  constructor
  · rintro ⟨⟨after, early, divides⟩, begun, going⟩
    have same := eq_windowOf positive divides begun going
    exact ⟨same, after.trans begun, same ▸ early⟩
  · rintro ⟨rfl, after, early⟩
    exact ⟨⟨le_windowOf positive after, early, dvd_windowOf_sub⟩, windowOf_le positive,
      lt_windowOf_add positive⟩

variable {starts : List ℤ}

/-- Windows in their order hold a moment at most once. -/
theorem filter_holds_length_le_one
    (ordered : starts.Pairwise fun first second => first + width ≤ second) (moment : ℤ) :
    (starts.filter fun start => start ≤ moment ∧ moment < start + width).length ≤ 1 := by
  induction starts with
  | nil => exact Nat.zero_le 1
  | cons first rest ih =>
      obtain ⟨later, ordered⟩ := List.pairwise_cons.mp ordered
      rw [List.filter_cons]
      split
      · next holds =>
          have holds := of_decide_eq_true holds
          have none : rest.filter (fun start => start ≤ moment ∧ moment < start + width) = [] := by
            refine List.filter_eq_nil_iff.mpr fun start member held => ?_
            have after := later start member
            have held := of_decide_eq_true held
            omega
          rw [none]
          exact le_rfl
      · exact ih ordered

theorem filter_holds_length_eq_one_iff
    (ordered : starts.Pairwise fun first second => first + width ≤ second) :
    (starts.filter fun start => start ≤ moment ∧ moment < start + width).length = 1 ↔
      ∃ start ∈ starts, start ≤ moment ∧ moment < start + width := by
  have once := filter_holds_length_le_one ordered moment
  constructor
  · intro one
    obtain ⟨start, same⟩ := List.length_eq_one_iff.mp one
    have member : start ∈ starts.filter fun start => start ≤ moment ∧ moment < start + width :=
      same ▸ List.mem_singleton_self start
    exact ⟨start, List.mem_of_mem_filter member, of_decide_eq_true (List.mem_filter.mp member).2⟩
  · rintro ⟨start, member, holds⟩
    have held : start ∈ starts.filter fun start => start ≤ moment ∧ moment < start + width :=
      List.mem_filter.mpr ⟨member, decide_eq_true holds⟩
    exact le_antisymm once (List.length_pos_of_mem held)

/-- What windows in their order add up is what all that they hold adds up to. -/
theorem sum_windows {α : Type*} (moment : α → ℤ) (amount : α → ℤ)
    (ordered : starts.Pairwise fun first second => first + width ≤ second) (items : List α) :
    (starts.map fun start => ((items.filter fun item =>
      start ≤ moment item ∧ moment item < start + width).map amount).sum).sum =
        ((items.filter fun item => ∃ start ∈ starts,
          start ≤ moment item ∧ moment item < start + width).map amount).sum := by
  induction starts with
  | nil => simp
  | cons first rest ih =>
      obtain ⟨later, ordered⟩ := List.pairwise_cons.mp ordered
      rw [List.map_cons, List.sum_cons, ih ordered]
      clear ih
      induction items with
      | nil => rfl
      | cons item items inner =>
          by_cases holds : first ≤ moment item ∧ moment item < first + width
          · have none : ¬∃ start ∈ rest, start ≤ moment item ∧ moment item < start + width := by
              rintro ⟨start, member, held⟩
              have after := later start member
              omega
            rw [List.filter_cons_of_pos (by simpa using holds),
              List.filter_cons_of_neg (by simpa using none),
              List.filter_cons_of_pos (by simpa using .inl holds), List.map_cons, List.map_cons,
              List.sum_cons, List.sum_cons, add_assoc, inner]
          · by_cases held : ∃ start ∈ rest, start ≤ moment item ∧ moment item < start + width
            · rw [List.filter_cons_of_neg (by simpa using holds),
                List.filter_cons_of_pos (by simpa using held),
                List.filter_cons_of_pos (by simpa using .inr held), List.map_cons, List.map_cons,
                List.sum_cons, List.sum_cons, add_left_comm, inner]
            · rw [List.filter_cons_of_neg (by simpa using holds),
                List.filter_cons_of_neg (by simpa using held),
                List.filter_cons_of_neg (by simpa using not_or.mpr ⟨holds, held⟩), inner]

end PlantManager.Timeline

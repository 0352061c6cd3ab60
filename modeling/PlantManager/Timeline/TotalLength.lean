import PlantManager.Timeline.Coalesce

/-! # The total length of intervals

The lengths of intervals add up to the number of the moments inside them exactly when no two of the
intervals have a moment in common (`Timeline.totalLength_eq_card_iff`).
-/

namespace PlantManager.Timeline

def totalLength (intervals : List (ℤ × ℤ)) : ℤ :=
  (intervals.map fun interval => interval.2 - interval.1).sum

def momentsOf (interval : ℤ × ℤ) : Finset ℤ :=
  @Finset.Ico ℤ Int.instLinearOrder.toPartialOrder.toPreorder Int.instLocallyFiniteOrder
    interval.1 interval.2

/-- The moments inside some intervals. -/
def moments : List (ℤ × ℤ) → Finset ℤ
  | [] => ∅
  | interval :: rest => momentsOf interval ∪ moments rest

theorem mem_momentsOf {interval : ℤ × ℤ} {moment : ℤ} :
    moment ∈ momentsOf interval ↔ interval.1 ≤ moment ∧ moment < interval.2 := Finset.mem_Ico

theorem card_momentsOf (interval : ℤ × ℤ) :
    (momentsOf interval).card = (interval.2 - interval.1).toNat := Int.card_Ico _ _

/-- No moment is inside both intervals. -/
def Apart {T : Type*} [LinearOrder T] (first second : T × T) : Prop :=
  ∀ moment, Inside first moment → ¬Inside second moment

theorem Apart.symm {T : Type*} [LinearOrder T] {first second : T × T} (apart : Apart first second) :
    Apart second first := fun moment inside also => apart moment also inside

theorem mem_moments {intervals : List (ℤ × ℤ)} {moment : ℤ} :
    moment ∈ moments intervals ↔ ActiveAt intervals moment := by
  induction intervals with
  | nil => simp [moments, ActiveAt]
  | cons interval rest ih =>
      rw [moments, Finset.mem_union, mem_momentsOf, ih, ActiveAt, ActiveAt, List.exists_mem_cons_iff]
      rfl

theorem disjoint_moments_iff {interval : ℤ × ℤ} {rest : List (ℤ × ℤ)} :
    Disjoint (momentsOf interval) (moments rest) ↔
      ∀ other ∈ rest, Apart interval other := by
  rw [Finset.disjoint_left]
  constructor
  · intro disjoint other member moment inside also
    exact disjoint (mem_momentsOf.mpr inside) (mem_moments.mpr ⟨other, member, also⟩)
  · intro apart moment inside also
    obtain ⟨other, member, also⟩ := mem_moments.mp also
    exact apart other member moment (mem_momentsOf.mp inside) also

section Forward

variable {intervals : List (ℤ × ℤ)} (forward : ∀ interval ∈ intervals, interval.1 ≤ interval.2)

include forward

theorem card_moments_le : ((moments intervals).card : ℤ) ≤ totalLength intervals := by
  induction intervals with
  | nil => rfl
  | cons interval rest ih =>
      obtain ⟨head, forward⟩ := List.forall_mem_cons.mp forward
      have union := Finset.card_union_le (momentsOf interval) (moments rest)
      have others := ih forward
      rw [card_momentsOf] at union
      rw [moments, totalLength, List.map_cons, List.sum_cons]
      unfold totalLength at others
      omega

theorem totalLength_eq_card_iff :
    totalLength intervals = (moments intervals).card ↔ intervals.Pairwise Apart := by
  induction intervals with
  | nil => exact ⟨fun _ => .nil, fun _ => rfl⟩
  | cons interval rest ih =>
      obtain ⟨head, forward⟩ := List.forall_mem_cons.mp forward
      have union := Finset.card_union_add_card_inter (momentsOf interval) (moments rest)
      have fewer := card_moments_le forward
      have total : totalLength (interval :: rest) =
        interval.2 - interval.1 + totalLength rest := List.sum_cons
      rw [card_momentsOf] at union
      rw [List.pairwise_cons, ← ih forward, ← disjoint_moments_iff,
        Finset.disjoint_iff_inter_eq_empty, ← Finset.card_eq_zero, total, moments]
      omega

end Forward

end PlantManager.Timeline

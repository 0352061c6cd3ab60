import Mathlib

/-! # Flows in a network with costs

A network is a finite family of arcs between vertices, each with a capacity and
a cost. A flow sends an amount between zero and the capacity along every arc and
conserves it everywhere except at a source and a sink.

Two certificates bound every competing flow. A cut that is saturated outward and
empty inward shows that no flow has a larger value
(`Flow.Network.value_le_of_cut`), and a potential whose reduced costs
agree in sign with the residual capacities shows that no flow of the same value is
cheaper (`Flow.Network.totalCost_le_of_potential`).
-/

namespace PlantManager.Flow

/-- A finite family of arcs between vertices with capacities and costs. -/
structure Network (V ι R : Type*) where
  tail : ι → V
  head : ι → V
  capacity : ι → R
  cost : ι → R

namespace Network

variable {V ι R : Type*} [DecidableEq V] [Fintype ι]

section Touched

variable (network : Network V ι R)

/-- The vertices touched by an arc. -/
private def touched : Finset V :=
  Finset.univ.image network.tail ∪ Finset.univ.image network.head

private theorem tail_mem_touched (arc : ι) : network.tail arc ∈ network.touched :=
  Finset.mem_union_left _ (Finset.mem_image_of_mem _ (Finset.mem_univ arc))

private theorem head_mem_touched (arc : ι) : network.head arc ∈ network.touched :=
  Finset.mem_union_right _ (Finset.mem_image_of_mem _ (Finset.mem_univ arc))

end Touched

section Conservation

variable [CommRing R] (network : Network V ι R)

/-- The amount leaving a vertex minus the amount entering it. -/
def net (flow : ι → R) (vertex : V) : R :=
  (∑ arc, if network.tail arc = vertex then flow arc else 0) -
    ∑ arc, if network.head arc = vertex then flow arc else 0

/-- The total cost of the amounts sent. -/
def totalCost (flow : ι → R) : R := ∑ arc, network.cost arc * flow arc

private theorem net_of_not_mem_touched (flow : ι → R) (vertex : V)
    (untouched : vertex ∉ network.touched) : network.net flow vertex = 0 := by
  have tails : ∀ arc, network.tail arc ≠ vertex := fun arc same =>
    untouched (same ▸ network.tail_mem_touched arc)
  have heads : ∀ arc, network.head arc ≠ vertex := fun arc same =>
    untouched (same ▸ network.head_mem_touched arc)
  simp only [net, tails, heads, ↓reduceIte, Finset.sum_const_zero, sub_self]

private theorem sum_endpoint (endpoint : ι → V) (vertices : Finset V)
    (inside : ∀ arc, endpoint arc ∈ vertices) (weight : V → R) (flow : ι → R) :
    ∑ arc, weight (endpoint arc) * flow arc =
      ∑ vertex ∈ vertices, weight vertex * ∑ arc, if endpoint arc = vertex then flow arc else 0 := by
  simp only [Finset.mul_sum]
  rw [Finset.sum_comm]
  apply Finset.sum_congr rfl
  intro arc _
  simp only [mul_ite, mul_zero]
  rw [Finset.sum_ite_eq]
  simp only [inside arc, ↓reduceIte]

/-- Summing a vertex weight along the arcs only sees the net amounts. -/
private theorem sum_weight_difference (weight : V → R) (flow : ι → R) :
    ∑ arc, (weight (network.tail arc) - weight (network.head arc)) * flow arc =
      ∑ vertex ∈ network.touched, weight vertex * network.net flow vertex := by
  simp only [sub_mul, Finset.sum_sub_distrib]
  rw [sum_endpoint network.tail network.touched network.tail_mem_touched,
    sum_endpoint network.head network.touched network.head_mem_touched, ← Finset.sum_sub_distrib]
  exact Finset.sum_congr rfl fun vertex _ => (mul_sub _ _ _).symm

private theorem net_sub (first second : ι → R) (vertex : V) :
    network.net (fun arc => first arc - second arc) vertex =
      network.net first vertex - network.net second vertex := by
  have split : ∀ (endpoint : ι → V),
      (∑ arc, if endpoint arc = vertex then first arc - second arc else 0) =
        (∑ arc, if endpoint arc = vertex then first arc else 0) -
          ∑ arc, if endpoint arc = vertex then second arc else 0 := by
    intro endpoint
    rw [← Finset.sum_sub_distrib]
    apply Finset.sum_congr rfl
    intro arc _
    split <;> simp
  unfold net
  rw [split, split]
  ring

/-- Sending more along one arc moves that amount from its tail to its head. -/
theorem net_add_single [DecidableEq ι] (flow : ι → R) (changed : ι) (amount : R) (vertex : V) :
    network.net (fun arc => flow arc + if arc = changed then amount else 0) vertex =
      network.net flow vertex + ((if network.tail changed = vertex then amount else 0) -
        if network.head changed = vertex then amount else 0) := by
  have split : ∀ (endpoint : ι → V),
      (∑ arc, if endpoint arc = vertex then flow arc + (if arc = changed then amount else 0)
        else 0) = (∑ arc, if endpoint arc = vertex then flow arc else 0) +
          if endpoint changed = vertex then amount else 0 := by
    intro endpoint
    have single : (∑ arc, if arc = changed then if endpoint arc = vertex then amount else 0 else 0) =
        if endpoint changed = vertex then amount else 0 := by
      rw [Finset.sum_ite_eq']
      simp only [Finset.mem_univ, ↓reduceIte]
    rw [← single, ← Finset.sum_add_distrib]
    apply Finset.sum_congr rfl
    intro arc _
    by_cases here : endpoint arc = vertex <;> simp [here]
  unfold net
  rw [split, split]
  ring

/-- The net amounts of a flow sum to zero. -/
private theorem sum_net (flow : ι → R) : ∑ vertex ∈ network.touched, network.net flow vertex = 0 := by
  have constant := network.sum_weight_difference (fun _ => 1) flow
  simpa using constant.symm

/-- Amounts conserved away from the two ends, with nothing leaving the source,
are conserved everywhere. -/
private theorem net_eq_zero_of_conserved {source sink : V} (flow : ι → R)
    (conserved : ∀ vertex, vertex ≠ source → vertex ≠ sink → network.net flow vertex = 0)
    (balanced : network.net flow source = 0) (vertex : V) : network.net flow vertex = 0 := by
  by_cases atSource : vertex = source
  · rw [atSource]; exact balanced
  by_cases atSink : vertex = sink
  · subst atSink
    by_cases inside : vertex ∈ network.touched
    · have total := network.sum_net flow
      rw [Finset.sum_eq_single_of_mem vertex inside] at total
      · exact total
      · intro other _ different
        by_cases same : other = source
        · rw [same]; exact balanced
        · exact conserved other same different
    · exact network.net_of_not_mem_touched flow vertex inside
  · exact conserved vertex atSource atSink

end Conservation

section Optimality

variable [CommRing R] [LinearOrder R] [IsStrictOrderedRing R] (network : Network V ι R)

/-- Amounts within the capacities, conserved away from the source and the sink. -/
structure IsFlow (source sink : V) (flow : ι → R) : Prop where
  nonneg : ∀ arc, 0 ≤ flow arc
  le_capacity : ∀ arc, flow arc ≤ network.capacity arc
  conserved : ∀ vertex, vertex ≠ source → vertex ≠ sink → network.net flow vertex = 0

/-- **Cut bound.** When an arc out of the cut is full and an arc into the cut is
empty, no flow has a larger value. -/
theorem value_le_of_cut {source sink : V} {best : ι → R} (cut : V → Prop) [DecidablePred cut]
    (bestFlow : network.IsFlow source sink best)
    (sourceInside : cut source) (sinkOutside : ¬ cut sink)
    (full : ∀ arc, cut (network.tail arc) → ¬ cut (network.head arc) →
      best arc = network.capacity arc)
    (empty : ∀ arc, ¬ cut (network.tail arc) → cut (network.head arc) → best arc = 0)
    {other : ι → R} (otherFlow : network.IsFlow source sink other) :
    network.net other source ≤ network.net best source := by
  have across : ∀ flow, network.IsFlow source sink flow → network.net flow source =
      ∑ arc, ((if cut (network.tail arc) then (1 : R) else 0) -
        if cut (network.head arc) then 1 else 0) * flow arc := by
    intro flow isFlow
    rw [network.sum_weight_difference (fun vertex => if cut vertex then (1 : R) else 0) flow]
    by_cases inside : source ∈ network.touched
    · rw [Finset.sum_eq_single_of_mem source inside]
      · simp only [sourceInside, ↓reduceIte, one_mul]
      · intro vertex _ different
        by_cases member : cut vertex
        · have notSink : vertex ≠ sink := fun same => sinkOutside (same ▸ member)
          rw [isFlow.conserved vertex different notSink, mul_zero]
        · simp only [member, ↓reduceIte, zero_mul]
    · rw [network.net_of_not_mem_touched flow source inside]
      symm
      apply Finset.sum_eq_zero
      intro vertex member
      have different : vertex ≠ source := fun same => inside (same ▸ member)
      by_cases within : cut vertex
      · have notSink : vertex ≠ sink := fun same => sinkOutside (same ▸ within)
        rw [isFlow.conserved vertex different notSink, mul_zero]
      · simp only [within, ↓reduceIte, zero_mul]
  rw [across other otherFlow, across best bestFlow]
  apply Finset.sum_le_sum
  intro arc _
  by_cases tailInside : cut (network.tail arc) <;> by_cases headInside : cut (network.head arc)
  · simp [tailInside, headInside]
  · simp only [tailInside, headInside, ↓reduceIte, sub_zero, one_mul]
    rw [full arc tailInside headInside]
    exact otherFlow.le_capacity arc
  · simp only [tailInside, headInside, ↓reduceIte, zero_sub, neg_mul, one_mul]
    rw [empty arc tailInside headInside]
    exact neg_le_neg (otherFlow.nonneg arc)
  · simp [tailInside, headInside]

/-- The cost of an arc after charging the potentials of its two ends. -/
def reducedCost (potential : V → R) (arc : ι) : R :=
  network.cost arc + potential (network.tail arc) - potential (network.head arc)

/-- **Complementary slackness.** When no arc with room left has a negative reduced
cost and no arc in use has a positive one, no flow of the same value is cheaper. -/
theorem totalCost_le_of_potential {source sink : V} {best : ι → R} (potential : V → R)
    (bestFlow : network.IsFlow source sink best)
    (room : ∀ arc, best arc < network.capacity arc → 0 ≤ network.reducedCost potential arc)
    (used : ∀ arc, 0 < best arc → network.reducedCost potential arc ≤ 0)
    {other : ι → R} (otherFlow : network.IsFlow source sink other)
    (sameValue : network.net other source = network.net best source) :
    network.totalCost best ≤ network.totalCost other := by
  let change : ι → R := fun arc => other arc - best arc
  have balanced : ∀ vertex, network.net change vertex = 0 := by
    refine @net_eq_zero_of_conserved _ _ _ _ _ _ network source sink change ?_ ?_
    · intro vertex notSource notSink
      rw [network.net_sub, otherFlow.conserved vertex notSource notSink,
        bestFlow.conserved vertex notSource notSink, sub_zero]
    · rw [network.net_sub, sameValue, sub_self]
  have telescoped : ∑ arc, (potential (network.tail arc) - potential (network.head arc)) *
      change arc = 0 := by
    rw [network.sum_weight_difference]
    apply Finset.sum_eq_zero
    intro vertex _
    rw [balanced vertex, mul_zero]
  have difference : network.totalCost other - network.totalCost best =
      ∑ arc, network.reducedCost potential arc * change arc := by
    calc network.totalCost other - network.totalCost best
        = ∑ arc, network.cost arc * change arc := by
          unfold totalCost
          rw [← Finset.sum_sub_distrib]
          exact Finset.sum_congr rfl fun arc _ => (mul_sub _ _ _).symm
      _ = ∑ arc, network.cost arc * change arc +
            ∑ arc, (potential (network.tail arc) - potential (network.head arc)) * change arc := by
          rw [telescoped, add_zero]
      _ = ∑ arc, network.reducedCost potential arc * change arc := by
          rw [← Finset.sum_add_distrib]
          apply Finset.sum_congr rfl
          intro arc _
          unfold reducedCost
          ring
  have nonneg : 0 ≤ ∑ arc, network.reducedCost potential arc * change arc := by
    apply Finset.sum_nonneg
    intro arc _
    rcases lt_trichotomy (change arc) 0 with negative | zero | positive
    · have inUse : 0 < best arc := lt_of_le_of_lt (otherFlow.nonneg arc) (sub_neg.mp negative)
      exact mul_nonneg_of_nonpos_of_nonpos (used arc inUse) negative.le
    · rw [zero, mul_zero]
    · have spare : best arc < network.capacity arc :=
        lt_of_lt_of_le (sub_pos.mp positive) (otherFlow.le_capacity arc)
      exact mul_nonneg (room arc spare) positive.le
  linarith

end Optimality

end Network

end PlantManager.Flow

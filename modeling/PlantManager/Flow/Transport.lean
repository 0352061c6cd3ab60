import PlantManager.Flow.Saturate

/-! # Assigning people to centers by a flow

A transport network has a source with a unit arc to every person, unit arcs from
people to centers, and sink arcs out of the centers. Its flows are the partial
assignments of people along the edges whose counts the sink arcs of every center
can carry (`Flow.TransportFlow`), so a cheapest maximum flow is an
assignment of as many people as possible at the lowest cost
(`Flow.transport_optimal`).
-/

namespace PlantManager.Flow

section SumIndexed

variable {α β : Type*}

/-- Sum a quantity over the items of a list and their indices. -/
def sumIndexed : List α → (ℕ → α → ℤ) → ℤ
  | [], _ => 0
  | item :: rest, term => term 0 item + sumIndexed rest fun index => term (index + 1)

theorem sumIndexed_append (first second : List α) (term : ℕ → α → ℤ) :
    sumIndexed (first ++ second) term =
      sumIndexed first term + sumIndexed second fun index => term (first.length + index) := by
  induction first generalizing term with
  | nil => simp [sumIndexed]
  | cons item rest ih =>
      rw [List.cons_append, sumIndexed, ih, sumIndexed, add_assoc]
      congr 3
      funext index
      rw [List.length_cons]
      congr 1
      omega

theorem sumIndexed_map (items : List β) (toItem : β → α) (term : ℕ → α → ℤ) :
    sumIndexed (items.map toItem) term =
      ∑ index : Fin items.length, term index (toItem items[index]) := by
  induction items generalizing term with
  | nil => rfl
  | cons item rest ih =>
      rw [List.map_cons, sumIndexed, ih]
      exact (Fin.sum_univ_succ (fun index : Fin (rest.length + 1) =>
        term index (toItem (item :: rest)[index]))).symm

theorem sumIndexed_eq_sum (items : List α) (term : ℕ → α → ℤ) :
    sumIndexed items term = ∑ index : Fin items.length, term index items[index] := by
  simpa using sumIndexed_map items id term

end SumIndexed

/-- What an arc contributes to the net amount of a node. -/
def netTerm (amount : ℕ → ℤ) (node : ℕ) (index : ℕ) (spec : ArcSpec) : ℤ :=
  (if spec.start = node then amount index else 0) - if spec.stop = node then amount index else 0

theorem net_eq_sumIndexed (specs : List ArcSpec) (amount : ℕ → ℤ) (node : ℕ) :
    (network specs).net (fun arc => amount arc) node = sumIndexed specs (netTerm amount node) := by
  rw [sumIndexed_eq_sum]
  unfold Network.net netTerm
  rw [Finset.sum_sub_distrib]
  rfl

theorem totalCost_eq_sumIndexed (specs : List ArcSpec) (amount : ℕ → ℤ) :
    (network specs).totalCost (fun arc => amount arc) =
      sumIndexed specs fun index spec => spec.cost * amount index := by
  rw [sumIndexed_eq_sum]
  rfl

/-- An edge from a person to a center. -/
structure Edge where
  person : ℕ
  center : ℕ
  cost : ℤ

/-- An arc from a center to the sink. -/
structure SinkArc where
  center : ℕ
  capacity : ℕ
  cost : ℤ

/-- People, centers, the edges between them and the arcs out of the centers. -/
structure Transport where
  people : ℕ
  centers : ℕ
  edges : List Edge
  sinks : List SinkArc
  edge_person : ∀ edge ∈ edges, edge.person < people
  edge_center : ∀ edge ∈ edges, edge.center < centers
  sink_center : ∀ sink ∈ sinks, sink.center < centers

namespace Transport

variable (transport : Transport)

/-- The node where all paths end. -/
def sink : ℕ := 1 + transport.people + transport.centers

def personArcs : List ArcSpec :=
  (List.range transport.people).map fun person => ⟨0, person + 1, 1, 0⟩

def edgeArcs : List ArcSpec :=
  transport.edges.map fun edge =>
    ⟨edge.person + 1, 1 + transport.people + edge.center, 1, edge.cost⟩

def sinkArcs : List ArcSpec :=
  transport.sinks.map fun arc =>
    ⟨1 + transport.people + arc.center, transport.sink, arc.capacity, arc.cost⟩

/-- The number of people sent along the edges. -/
def headcount (edge : ℕ → ℤ) : ℤ := ∑ index : Fin transport.edges.length, edge index

/-- The number of people sent to a center. -/
def arrivals (edge : ℕ → ℤ) (center : ℕ) : ℤ :=
  ∑ index : Fin transport.edges.length,
    if transport.edges[index].center = center then edge index else 0

/-- The number of edges used out of a person. -/
def departures (edge : ℕ → ℤ) (person : ℕ) : ℤ :=
  ∑ index : Fin transport.edges.length,
    if transport.edges[index].person = person then edge index else 0

/-- The amount leaving a center. -/
def drained (out : ℕ → ℤ) (center : ℕ) : ℤ :=
  ∑ index : Fin transport.sinks.length,
    if transport.sinks[index].center = center then out index else 0

/-- The cost of the edges and of the sink arcs used. -/
def cost (edge out : ℕ → ℤ) : ℤ :=
  (∑ index : Fin transport.edges.length, transport.edges[index].cost * edge index) +
    ∑ index : Fin transport.sinks.length, transport.sinks[index].cost * out index

end Transport

/-- Amounts along the edges and out of the centers that form an assignment. -/
structure TransportFlow (transport : Transport) (edge out : ℕ → ℤ) : Prop where
  edge_nonneg : ∀ index < transport.edges.length, 0 ≤ edge index
  edge_le : ∀ index < transport.edges.length, edge index ≤ 1
  out_nonneg : ∀ index < transport.sinks.length, 0 ≤ out index
  out_le : ∀ index (bound : index < transport.sinks.length),
    out index ≤ transport.sinks[index].capacity
  departures_le : ∀ person < transport.people, transport.departures edge person ≤ 1
  balanced : ∀ center < transport.centers,
    transport.arrivals edge center = transport.drained out center

namespace Transport

variable (transport : Transport)

variable {transport} in
theorem headcount_congr {first second : ℕ → ℤ}
    (same : ∀ index < transport.edges.length, first index = second index) :
    transport.headcount first = transport.headcount second :=
  Finset.sum_congr rfl fun index _ => same index index.isLt

variable {transport} in
theorem departures_congr {first second : ℕ → ℤ}
    (same : ∀ index < transport.edges.length, first index = second index) (person : ℕ) :
    transport.departures first person = transport.departures second person := by
  exact Finset.sum_congr rfl fun index _ => by rw [same index index.isLt]

variable {transport} in
theorem arrivals_congr {first second : ℕ → ℤ}
    (same : ∀ index < transport.edges.length, first index = second index) (center : ℕ) :
    transport.arrivals first center = transport.arrivals second center := by
  exact Finset.sum_congr rfl fun index _ => by rw [same index index.isLt]

variable {transport} in
theorem drained_congr {first second : ℕ → ℤ}
    (same : ∀ index < transport.sinks.length, first index = second index) (center : ℕ) :
    transport.drained first center = transport.drained second center := by
  exact Finset.sum_congr rfl fun index _ => by rw [same index index.isLt]

variable {transport} in
theorem cost_congr {firstEdge secondEdge firstOut secondOut : ℕ → ℤ}
    (sameEdge : ∀ index < transport.edges.length, firstEdge index = secondEdge index)
    (sameOut : ∀ index < transport.sinks.length, firstOut index = secondOut index) :
    transport.cost firstEdge firstOut = transport.cost secondEdge secondOut := by
  unfold cost
  congr 1
  · exact Finset.sum_congr rfl fun index _ => by rw [sameEdge index index.isLt]
  · exact Finset.sum_congr rfl fun index _ => by rw [sameOut index index.isLt]

variable (amount : ℕ → ℤ)

theorem net_personArcs (node : ℕ) :
    sumIndexed transport.personArcs (netTerm amount node) =
      (if node = 0 then ∑ person ∈ Finset.range transport.people, amount person else 0) -
        if 0 < node ∧ node ≤ transport.people then amount (node - 1) else 0 := by
  unfold personArcs
  rw [sumIndexed_map]
  have shape : ∀ index : Fin (List.range transport.people).length,
      netTerm amount node index ⟨0, (List.range transport.people)[index] + 1, 1, 0⟩ =
        (if node = 0 then amount index else 0) -
          if (index : ℕ) + 1 = node then amount index else 0 := by
    intro index
    simp only [netTerm, Fin.getElem_fin, List.getElem_range, eq_comm]
  rw [Finset.sum_congr rfl fun index _ => shape index]
  rw [Fin.sum_univ_eq_sum_range (fun index => (if node = 0 then amount index else 0) -
    if index + 1 = node then amount index else 0)]
  rw [List.length_range, Finset.sum_sub_distrib]
  congr 1
  · by_cases atSource : node = 0 <;> simp [atSource]
  · by_cases inside : 0 < node ∧ node ≤ transport.people
    · rw [if_pos inside, Finset.sum_eq_single_of_mem (node - 1)]
      · rw [if_pos (by omega)]
      · exact Finset.mem_range.mpr (by omega)
      · intro other _ different
        rw [if_neg (by omega)]
    · rw [if_neg inside]
      apply Finset.sum_eq_zero
      intro index member
      have bound := Finset.mem_range.mp member
      rw [if_neg (by omega)]

theorem net_edgeArcs_person {person : ℕ} (bound : person < transport.people) :
    sumIndexed transport.edgeArcs (netTerm amount (person + 1)) =
      transport.departures amount person := by
  unfold edgeArcs departures
  rw [sumIndexed_map]
  apply Finset.sum_congr rfl
  intro index _
  have notStop : ¬ 1 + transport.people + transport.edges[index].center = person + 1 := by omega
  simp only [netTerm, notStop, ↓reduceIte, sub_zero, Nat.add_right_cancel_iff]

theorem net_edgeArcs_center (center : ℕ) :
    sumIndexed transport.edgeArcs (netTerm amount (1 + transport.people + center)) =
      -transport.arrivals amount center := by
  unfold edgeArcs arrivals
  rw [sumIndexed_map, ← Finset.sum_neg_distrib]
  apply Finset.sum_congr rfl
  intro index _
  have person := transport.edge_person _ (List.getElem_mem index.isLt)
  have notStart : ¬ transport.edges[index].person + 1 = 1 + transport.people + center := by
    simp only [Fin.getElem_fin]; omega
  simp only [netTerm, notStart, ↓reduceIte, zero_sub, Nat.add_left_cancel_iff]

theorem net_edgeArcs_source : sumIndexed transport.edgeArcs (netTerm amount 0) = 0 := by
  unfold edgeArcs
  rw [sumIndexed_map]
  apply Finset.sum_eq_zero
  intro index _
  have notStop : ¬ 1 + transport.people + transport.edges[index].center = 0 := by omega
  simp only [netTerm, Nat.succ_ne_zero, notStop, ↓reduceIte, sub_zero]

theorem net_sinkArcs_center {center : ℕ} (bound : center < transport.centers) :
    sumIndexed transport.sinkArcs (netTerm amount (1 + transport.people + center)) =
      transport.drained amount center := by
  unfold sinkArcs drained
  rw [sumIndexed_map]
  apply Finset.sum_congr rfl
  intro index _
  have notStop : ¬ transport.sink = 1 + transport.people + center := by unfold sink; omega
  simp only [netTerm, notStop, ↓reduceIte, sub_zero, Nat.add_left_cancel_iff]

theorem net_sinkArcs_of_le {node : ℕ} (below : node ≤ transport.people) :
    sumIndexed transport.sinkArcs (netTerm amount node) = 0 := by
  unfold sinkArcs
  rw [sumIndexed_map]
  apply Finset.sum_eq_zero
  intro index _
  have notStart : ¬ 1 + transport.people + transport.sinks[index].center = node := by omega
  have notStop : ¬ transport.sink = node := by unfold sink; omega
  simp only [netTerm, notStart, notStop, ↓reduceIte, sub_zero]

/-- Everyone who departs is counted once. -/
theorem headcount_eq_sum_departures (edge : ℕ → ℤ) :
    transport.headcount edge =
      ∑ person ∈ Finset.range transport.people, transport.departures edge person := by
  unfold headcount departures
  rw [Finset.sum_comm]
  apply Finset.sum_congr rfl
  intro index _
  have person := transport.edge_person _ (List.getElem_mem index.isLt)
  rw [Finset.sum_ite_eq]
  simp only [Finset.mem_range]
  exact (if_pos person).symm

end Transport

/-- Arc specifications made of the three groups of arcs, each in one block. -/
structure Layout (transport : Transport) (specs : List ArcSpec) (edgeOffset sinkOffset : ℕ) :
    Prop where
  split : ∀ term, sumIndexed specs term =
    sumIndexed transport.personArcs term +
      (sumIndexed transport.edgeArcs fun index => term (edgeOffset + index)) +
      sumIndexed transport.sinkArcs fun index => term (sinkOffset + index)
  cases : ∀ index spec, specs[index]? = some spec →
    transport.personArcs[index]? = some spec ∨
      (∃ edge, index = edgeOffset + edge ∧ transport.edgeArcs[edge]? = some spec) ∨
      ∃ out, index = sinkOffset + out ∧ transport.sinkArcs[out]? = some spec
  person : ∀ index < transport.people, specs[index]? = transport.personArcs[index]?
  edge : ∀ index < transport.edges.length, specs[edgeOffset + index]? = transport.edgeArcs[index]?
  out : ∀ index < transport.sinks.length, specs[sinkOffset + index]? = transport.sinkArcs[index]?
  disjoint : ∀ edge < transport.edges.length, ∀ out < transport.sinks.length,
    transport.people ≤ edgeOffset ∧ transport.people ≤ sinkOffset ∧
      edgeOffset + edge ≠ sinkOffset + out

namespace Transport

variable (transport : Transport)

@[simp] theorem length_personArcs : transport.personArcs.length = transport.people := by
  simp [personArcs]

@[simp] theorem length_edgeArcs : transport.edgeArcs.length = transport.edges.length := by
  simp [edgeArcs]

@[simp] theorem length_sinkArcs : transport.sinkArcs.length = transport.sinks.length := by
  simp [sinkArcs]

/-- The blocks in the order people, edges, sink arcs. -/
theorem layout_edges_first :
    Layout transport (transport.personArcs ++ transport.edgeArcs ++ transport.sinkArcs)
      transport.people (transport.people + transport.edges.length) := by
  constructor
  · intro term
    rw [sumIndexed_append, sumIndexed_append]
    simp only [List.length_append, length_personArcs, length_edgeArcs]
  · intro index spec stored
    rw [List.getElem?_append, List.getElem?_append] at stored
    simp only [List.length_append, length_personArcs, length_edgeArcs] at stored
    split at stored
    · split at stored
      · exact Or.inl stored
      · exact Or.inr (Or.inl ⟨index - transport.people, by omega, stored⟩)
    · exact Or.inr (Or.inr ⟨index - (transport.people + transport.edges.length), by omega, stored⟩)
  · intro index bound
    rw [List.getElem?_append_left (by simp; omega), List.getElem?_append_left (by simpa using bound)]
  · intro index bound
    rw [List.getElem?_append_left (by simp; omega), List.getElem?_append_right (by simp)]
    simp
  · intro index bound
    rw [List.getElem?_append_right (by simp)]
    simp
  · intro edge _ out _
    omega

/-- The blocks in the order people, sink arcs, edges. -/
theorem layout_sinks_first :
    Layout transport (transport.personArcs ++ transport.sinkArcs ++ transport.edgeArcs)
      (transport.people + transport.sinks.length) transport.people := by
  constructor
  · intro term
    rw [sumIndexed_append, sumIndexed_append]
    simp only [List.length_append, length_personArcs, length_sinkArcs]
    rw [add_right_comm]
  · intro index spec stored
    rw [List.getElem?_append, List.getElem?_append] at stored
    simp only [List.length_append, length_personArcs, length_sinkArcs] at stored
    split at stored
    · split at stored
      · exact Or.inl stored
      · exact Or.inr (Or.inr ⟨index - transport.people, by omega, stored⟩)
    · exact Or.inr (Or.inl ⟨index - (transport.people + transport.sinks.length), by omega, stored⟩)
  · intro index bound
    rw [List.getElem?_append_left (by simp; omega), List.getElem?_append_left (by simpa using bound)]
  · intro index bound
    rw [List.getElem?_append_right (by simp)]
    simp
  · intro index bound
    rw [List.getElem?_append_left (by simp; omega), List.getElem?_append_right (by simp)]
    simp
  · intro edge _ out _
    omega

end Transport

namespace Layout

variable {transport : Transport} {specs : List ArcSpec} {edgeOffset sinkOffset : ℕ}

section

variable (layout : Layout transport specs edgeOffset sinkOffset)
include layout

theorem net_source (amount : ℕ → ℤ) :
    sumIndexed specs (netTerm amount 0) = ∑ person ∈ Finset.range transport.people, amount person := by
  rw [layout.split, transport.net_personArcs]
  have edges := transport.net_edgeArcs_source fun index => amount (edgeOffset + index)
  have sinks := transport.net_sinkArcs_of_le (fun index => amount (sinkOffset + index)) (Nat.zero_le _)
  change _ + sumIndexed _ (netTerm _ 0) + sumIndexed _ (netTerm _ 0) = _
  rw [edges, sinks]
  simp

theorem net_person (amount : ℕ → ℤ) {person : ℕ} (bound : person < transport.people) :
    sumIndexed specs (netTerm amount (person + 1)) =
      transport.departures (fun index => amount (edgeOffset + index)) person - amount person := by
  rw [layout.split, transport.net_personArcs]
  have edges := transport.net_edgeArcs_person (fun index => amount (edgeOffset + index)) bound
  have sinks := transport.net_sinkArcs_of_le (fun index => amount (sinkOffset + index))
    (Nat.succ_le_of_lt bound)
  change _ + sumIndexed _ (netTerm _ (person + 1)) + sumIndexed _ (netTerm _ (person + 1)) = _
  rw [edges, sinks, if_neg (Nat.succ_ne_zero _), if_pos ⟨Nat.succ_pos _, bound⟩]
  simp only [Nat.add_sub_cancel]
  ring

theorem net_center (amount : ℕ → ℤ) {center : ℕ} (bound : center < transport.centers) :
    sumIndexed specs (netTerm amount (1 + transport.people + center)) =
      transport.drained (fun index => amount (sinkOffset + index)) center -
        transport.arrivals (fun index => amount (edgeOffset + index)) center := by
  rw [layout.split, transport.net_personArcs]
  have edges := transport.net_edgeArcs_center (fun index => amount (edgeOffset + index)) center
  have sinks := transport.net_sinkArcs_center (fun index => amount (sinkOffset + index)) bound
  change _ + sumIndexed _ (netTerm _ (1 + transport.people + center)) +
    sumIndexed _ (netTerm _ (1 + transport.people + center)) = _
  rw [edges, sinks, if_neg (by omega), if_neg (by omega)]
  ring

theorem totalCost (amount : ℕ → ℤ) :
    sumIndexed specs (fun index spec => spec.cost * amount index) =
      transport.cost (fun index => amount (edgeOffset + index))
        fun index => amount (sinkOffset + index) := by
  rw [layout.split]
  have people : sumIndexed transport.personArcs (fun index spec => spec.cost * amount index) = 0 := by
    unfold Transport.personArcs
    rw [sumIndexed_map]
    exact Finset.sum_eq_zero fun index _ => zero_mul _
  rw [people, zero_add]
  unfold Transport.edgeArcs Transport.sinkArcs Transport.cost
  rw [sumIndexed_map, sumIndexed_map]

end

private theorem edgeArcs_getElem? (transport : Transport) {index : ℕ}
    (bound : index < transport.edges.length) :
    transport.edgeArcs[index]? = some ⟨transport.edges[index].person + 1,
      1 + transport.people + transport.edges[index].center, 1, transport.edges[index].cost⟩ := by
  simp [Transport.edgeArcs, bound]

private theorem sinkArcs_getElem? (transport : Transport) {index : ℕ}
    (bound : index < transport.sinks.length) :
    transport.sinkArcs[index]? = some ⟨1 + transport.people + transport.sinks[index].center,
      transport.sink, transport.sinks[index].capacity, transport.sinks[index].cost⟩ := by
  simp [Transport.sinkArcs, bound]

private theorem personArcs_getElem? (transport : Transport) {index : ℕ}
    (bound : index < transport.people) :
    transport.personArcs[index]? = some ⟨0, index + 1, 1, 0⟩ := by
  simp [Transport.personArcs, bound]

/-- A flow of the network is an assignment. -/
theorem transportFlow (layout : Layout transport specs edgeOffset sinkOffset) (amount : ℕ → ℤ)
    (isFlow : (network specs).IsFlow 0 transport.sink fun arc => amount arc) :
    TransportFlow transport (fun index => amount (edgeOffset + index))
        (fun index => amount (sinkOffset + index)) ∧
      (network specs).net (fun arc => amount arc) 0 =
        transport.headcount fun index => amount (edgeOffset + index) := by
  have bounds : ∀ index spec, specs[index]? = some spec →
      0 ≤ amount index ∧ amount index ≤ spec.capacity := by
    intro index spec stored
    obtain ⟨bound, isSpec⟩ := List.getElem?_eq_some_iff.mp stored
    have upper := isFlow.le_capacity ⟨index, bound⟩
    simp only [network, Fin.getElem_fin, isSpec] at upper
    exact ⟨isFlow.nonneg ⟨index, bound⟩, upper⟩
  have conserved : ∀ node, node ≠ 0 → node ≠ transport.sink →
      sumIndexed specs (netTerm amount node) = 0 := by
    intro node notSource notSink
    rw [← net_eq_sumIndexed]
    exact isFlow.conserved node notSource notSink
  have edgeBounds : ∀ index < transport.edges.length,
      0 ≤ amount (edgeOffset + index) ∧ amount (edgeOffset + index) ≤ 1 := by
    intro index bound
    have stored := (layout.edge index bound).trans (edgeArcs_getElem? transport bound)
    simpa using bounds _ _ stored
  have sinkBounds : ∀ index (bound : index < transport.sinks.length),
      0 ≤ amount (sinkOffset + index) ∧
        amount (sinkOffset + index) ≤ transport.sinks[index].capacity := by
    intro index bound
    exact bounds _ _ ((layout.out index bound).trans (sinkArcs_getElem? transport bound))
  have departs : ∀ person < transport.people,
      transport.departures (fun index => amount (edgeOffset + index)) person = amount person := by
    intro person bound
    have zero := conserved (person + 1) (Nat.succ_ne_zero _) (by unfold Transport.sink; omega)
    rw [layout.net_person amount bound] at zero
    omega
  refine ⟨⟨fun index bound => (edgeBounds index bound).1, fun index bound => (edgeBounds index bound).2,
    fun index bound => (sinkBounds index bound).1, fun index bound => (sinkBounds index bound).2,
    ?_, ?_⟩, ?_⟩
  · intro person bound
    rw [departs person bound]
    have stored := (layout.person person bound).trans (personArcs_getElem? transport bound)
    simpa using (bounds _ _ stored).2
  · intro center bound
    have zero := conserved (1 + transport.people + center) (by omega)
      (by unfold Transport.sink; omega)
    rw [layout.net_center amount bound] at zero
    omega
  · rw [net_eq_sumIndexed, layout.net_source, transport.headcount_eq_sum_departures]
    exact Finset.sum_congr rfl fun person member => (departs person (Finset.mem_range.mp member)).symm

/-- Every assignment is a flow of the network. -/
theorem exists_isFlow (layout : Layout transport specs edgeOffset sinkOffset) {edge out : ℕ → ℤ}
    (flow : TransportFlow transport edge out) :
    ∃ amount : ℕ → ℤ, ((network specs).IsFlow 0 transport.sink fun arc => amount arc) ∧
      (∀ index < transport.edges.length, amount (edgeOffset + index) = edge index) ∧
      ∀ index < transport.sinks.length, amount (sinkOffset + index) = out index := by
  let amount : ℕ → ℤ := fun index =>
    if index < transport.people then transport.departures edge index
    else if edgeOffset ≤ index ∧ index < edgeOffset + transport.edges.length then
      edge (index - edgeOffset)
    else out (index - sinkOffset)
  have atPerson : ∀ index < transport.people, amount index = transport.departures edge index :=
    fun index bound => if_pos bound
  have atEdge : ∀ index < transport.edges.length, amount (edgeOffset + index) = edge index := by
    intro index bound
    by_cases sinks : 0 < transport.sinks.length
    · have above := layout.disjoint index bound 0 sinks
      simp only [amount]
      rw [if_neg (by omega), if_pos (by omega), Nat.add_sub_cancel_left]
    · have stored := (layout.edge index bound).trans (edgeArcs_getElem? transport bound)
      have notPerson : ¬ edgeOffset + index < transport.people := by
        intro inside
        have other := (layout.person _ inside).trans (personArcs_getElem? transport inside)
        rw [stored] at other
        simp at other
      simp only [amount]
      rw [if_neg notPerson, if_pos (by omega), Nat.add_sub_cancel_left]
  have atSink : ∀ index < transport.sinks.length, amount (sinkOffset + index) = out index := by
    intro index bound
    have stored := (layout.out index bound).trans (sinkArcs_getElem? transport bound)
    have notPerson : ¬ sinkOffset + index < transport.people := by
      intro inside
      have other := (layout.person _ inside).trans (personArcs_getElem? transport inside)
      rw [stored] at other
      simp only [Option.some.injEq, ArcSpec.mk.injEq] at other
      omega
    have notEdge : ¬ (edgeOffset ≤ sinkOffset + index ∧
        sinkOffset + index < edgeOffset + transport.edges.length) := by
      rintro ⟨above, below⟩
      have apart := layout.disjoint (sinkOffset + index - edgeOffset) (by omega) index bound
      omega
    simp only [amount]
    rw [if_neg notPerson, if_neg notEdge, Nat.add_sub_cancel_left]
  refine ⟨amount, ⟨?_, ?_, ?_⟩, atEdge, atSink⟩
  · rintro ⟨index, bound⟩
    rcases layout.cases index _ (List.getElem?_eq_getElem bound) with
      person | ⟨position, rfl, stored⟩ | ⟨position, rfl, stored⟩
    · have inside : index < transport.people := by
        simpa using (List.getElem?_eq_some_iff.mp person).1
      rw [atPerson index inside]
      apply Finset.sum_nonneg
      intro other _
      split
      · exact flow.edge_nonneg other other.isLt
      · exact le_rfl
    · have inside : position < transport.edges.length := by
        simpa using (List.getElem?_eq_some_iff.mp stored).1
      rw [atEdge position inside]
      exact flow.edge_nonneg position inside
    · have inside : position < transport.sinks.length := by
        simpa using (List.getElem?_eq_some_iff.mp stored).1
      rw [atSink position inside]
      exact flow.out_nonneg position inside
  · rintro ⟨index, bound⟩
    change amount index ≤ (specs[index].capacity : ℤ)
    rcases layout.cases index _ (List.getElem?_eq_getElem bound) with
      person | ⟨position, rfl, stored⟩ | ⟨position, rfl, stored⟩
    · have inside : index < transport.people := by
        simpa using (List.getElem?_eq_some_iff.mp person).1
      rw [personArcs_getElem? transport inside] at person
      rw [atPerson index inside, ← Option.some.inj person]
      exact_mod_cast flow.departures_le index inside
    · have inside : position < transport.edges.length := by
        simpa using (List.getElem?_eq_some_iff.mp stored).1
      rw [edgeArcs_getElem? transport inside] at stored
      rw [atEdge position inside, ← Option.some.inj stored]
      exact_mod_cast flow.edge_le position inside
    · have inside : position < transport.sinks.length := by
        simpa using (List.getElem?_eq_some_iff.mp stored).1
      rw [sinkArcs_getElem? transport inside] at stored
      rw [atSink position inside, ← Option.some.inj stored]
      exact flow.out_le position inside
  · intro node notSource notSink
    rw [net_eq_sumIndexed]
    by_cases isPerson : node ≤ transport.people
    · obtain ⟨person, rfl⟩ : ∃ person, node = person + 1 := ⟨node - 1, by omega⟩
      rw [layout.net_person amount isPerson, Transport.departures_congr atEdge,
        atPerson person isPerson, sub_self]
    by_cases isCenter : node < transport.sink
    · obtain ⟨center, rfl⟩ : ∃ center, node = 1 + transport.people + center :=
        ⟨node - (1 + transport.people), by omega⟩
      have bound : center < transport.centers := by unfold Transport.sink at isCenter; omega
      rw [layout.net_center amount bound, Transport.arrivals_congr atEdge,
        Transport.drained_congr atSink, flow.balanced center bound, sub_self]
    · -- no arc touches a node beyond the sink
      rw [sumIndexed_eq_sum]
      apply Finset.sum_eq_zero
      intro index _
      have away : specs[index].start ≠ node ∧ specs[index].stop ≠ node := by
        have beyond : transport.sink < node := by omega
        unfold Transport.sink at beyond
        rcases layout.cases index _ (List.getElem?_eq_getElem index.isLt) with
          person | ⟨position, -, stored⟩ | ⟨position, -, stored⟩
        · have inside : (index : ℕ) < transport.people := by
            simpa using (List.getElem?_eq_some_iff.mp person).1
          rw [personArcs_getElem? transport inside] at person
          simp only [Fin.getElem_fin, ← Option.some.inj person]
          omega
        · have inside : position < transport.edges.length := by
            simpa using (List.getElem?_eq_some_iff.mp stored).1
          rw [edgeArcs_getElem? transport inside] at stored
          have person := transport.edge_person _ (List.getElem_mem inside)
          have center := transport.edge_center _ (List.getElem_mem inside)
          simp only [Fin.getElem_fin, ← Option.some.inj stored]
          omega
        · have inside : position < transport.sinks.length := by
            simpa using (List.getElem?_eq_some_iff.mp stored).1
          rw [sinkArcs_getElem? transport inside] at stored
          have center := transport.sink_center _ (List.getElem_mem inside)
          simp only [Fin.getElem_fin, ← Option.some.inj stored, Transport.sink]
          omega
      simp only [netTerm, away.1, away.2, ↓reduceIte, sub_self]

end Layout

section Optimality

variable {transport : Transport} {specs : List ArcSpec} {edgeOffset sinkOffset : ℕ}

theorem Layout.mem_cases (layout : Layout transport specs edgeOffset sinkOffset) {spec : ArcSpec}
    (member : spec ∈ specs) :
    (∃ person < transport.people, spec = ⟨0, person + 1, 1, 0⟩) ∨
      (∃ edge ∈ transport.edges, spec =
        ⟨edge.person + 1, 1 + transport.people + edge.center, 1, edge.cost⟩) ∨
      ∃ arc ∈ transport.sinks, spec =
        ⟨1 + transport.people + arc.center, transport.sink, arc.capacity, arc.cost⟩ := by
  obtain ⟨index, stored⟩ := List.mem_iff_getElem?.mp member
  rcases layout.cases index spec stored with found | ⟨_, -, found⟩ | ⟨_, -, found⟩
  · obtain ⟨person, inside, rfl⟩ := List.mem_map.mp (List.mem_of_getElem? found)
    exact Or.inl ⟨person, List.mem_range.mp inside, rfl⟩
  · obtain ⟨edge, inside, rfl⟩ := List.mem_map.mp (List.mem_of_getElem? found)
    exact Or.inr (Or.inl ⟨edge, inside, rfl⟩)
  · obtain ⟨arc, inside, rfl⟩ := List.mem_map.mp (List.mem_of_getElem? found)
    exact Or.inr (Or.inr ⟨arc, inside, rfl⟩)

theorem Layout.loopless (layout : Layout transport specs edgeOffset sinkOffset) :
    Loopless specs := by
  intro spec member
  rcases layout.mem_cases member with ⟨person, _, rfl⟩ | ⟨edge, inside, rfl⟩ | ⟨arc, inside, rfl⟩
  · exact (Nat.succ_ne_zero person).symm
  · have person := transport.edge_person edge inside
    simp only
    omega
  · have center := transport.sink_center arc inside
    simp only [Transport.sink]
    omega

/-- People at height zero, centers below them and the sink at the bottom. -/
private def layeredPotential (transport : Transport) (edgeCharge sinkCharge : ℤ) (node : ℕ) : ℤ :=
  if node ≤ transport.people then 0
  else if node < transport.sink then -edgeCharge
  else -edgeCharge - sinkCharge

private theorem cost_add_sum_abs_nonneg (costs : List ℤ) {cost : ℤ} (member : cost ∈ costs) :
    0 ≤ cost + (costs.map abs).sum := by
  have single : |cost| ≤ (costs.map abs).sum :=
    List.single_le_sum (fun value inside => by
      obtain ⟨other, -, rfl⟩ := List.mem_map.mp inside
      exact abs_nonneg other) _ (List.mem_map_of_mem member)
  have low := neg_abs_le cost
  omega

/-- Charging every edge and every sink arc the sum of all their costs is feasible. -/
theorem Layout.exists_potential (layout : Layout transport specs edgeOffset sinkOffset) :
    ∃ potential : ℕ → ℤ, ∀ spec ∈ specs, 0 < spec.capacity →
      0 ≤ spec.cost + potential spec.start - potential spec.stop := by
  let edgeCharge : ℤ := ((transport.edges.map Edge.cost).map abs).sum
  let sinkCharge : ℤ := ((transport.sinks.map SinkArc.cost).map abs).sum
  let potential := layeredPotential transport edgeCharge sinkCharge
  have atPerson : ∀ node ≤ transport.people, potential node = 0 := fun node below => if_pos below
  have atCenter : ∀ center < transport.centers,
      potential (1 + transport.people + center) = -edgeCharge := by
    intro center bound
    have below : 1 + transport.people + center < transport.sink := by unfold Transport.sink; omega
    simp only [potential, layeredPotential]
    rw [if_neg (by omega), if_pos below]
  have atSink : potential transport.sink = -edgeCharge - sinkCharge := by
    simp only [potential, layeredPotential]
    rw [if_neg (by unfold Transport.sink; omega), if_neg (lt_irrefl _)]
  refine ⟨potential, fun spec member _ => ?_⟩
  rcases layout.mem_cases member with ⟨person, inside, rfl⟩ | ⟨edge, inside, rfl⟩ | ⟨arc, inside, rfl⟩
  · have start := atPerson 0 (Nat.zero_le _)
    have stop := atPerson (person + 1) inside
    simp only [start, stop, add_zero, sub_zero, le_refl]
  · have start := atPerson (edge.person + 1) (transport.edge_person edge inside)
    have stop := atCenter edge.center (transport.edge_center edge inside)
    have low := cost_add_sum_abs_nonneg _ (List.mem_map_of_mem (f := Edge.cost) inside)
    simp only [start, stop, add_zero, sub_neg_eq_add]
    exact low
  · have start := atCenter arc.center (transport.sink_center arc inside)
    have low := cost_add_sum_abs_nonneg _ (List.mem_map_of_mem (f := SinkArc.cost) inside)
    simp only [start, atSink]
    omega

/-- **The loop finds an optimal assignment**: as many people as possible, and at
the lowest cost for that many. -/
theorem transport_optimal (layout : Layout transport specs edgeOffset sinkOffset) {graph : Graph}
    (built : Built specs graph) :
    ∃ used final,
      (∀ᶠ fuel in Filter.atTop, saturate 0 transport.sink fuel graph = some final) ∧
      Residual specs used final ∧
      TransportFlow transport (fun index => used (edgeOffset + index))
        (fun index => used (sinkOffset + index)) ∧
      ∀ edge out, TransportFlow transport edge out →
        transport.headcount edge ≤ transport.headcount (fun index => used (edgeOffset + index)) ∧
        (transport.headcount edge = transport.headcount (fun index => used (edgeOffset + index)) →
          transport.cost (fun index => used (edgeOffset + index))
            (fun index => used (sinkOffset + index)) ≤ transport.cost edge out) := by
  obtain ⟨potential, feasible⟩ := layout.exists_potential
  have different : 0 ≠ transport.sink := by unfold Transport.sink; omega
  obtain ⟨used, final, reached, residual, optimal⟩ :=
    saturate_optimal specs layout.loopless different feasible built
  obtain ⟨flow, value⟩ := layout.transportFlow (fun index => used index) optimal.isFlow
  refine ⟨used, final, reached, residual, flow, fun edge out other => ?_⟩
  obtain ⟨amount, isFlow, atEdge, atSink⟩ := layout.exists_isFlow other
  have otherValue := (layout.transportFlow amount isFlow).2
  rw [Transport.headcount_congr atEdge] at otherValue
  refine ⟨?_, fun same => ?_⟩
  · rw [← otherValue, ← value]
    exact optimal.maximal _ isFlow
  · have cheapest := optimal.cheapest _ isFlow (by rw [otherValue, same]; exact value.symm)
    change (network specs).totalCost (fun arc => ((used arc : ℕ) : ℤ)) ≤ _ at cheapest
    rw [totalCost_eq_sumIndexed specs amount, totalCost_eq_sumIndexed specs (fun index => used index),
      layout.totalCost, layout.totalCost, Transport.cost_congr atEdge atSink] at cheapest
    exact cheapest

end Optimality

end PlantManager.Flow

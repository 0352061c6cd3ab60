import PlantManager.Flow.Transport

/-! # Optimal assignments as lists of items

Items that stand for edges are selected by the amounts of a transport flow
(`Flow.pick`). The optimality of the flow becomes a statement about
lists: the items selected respect the limits of every person and every center, and
no other list of items that does so is longer, or equally long and cheaper.

Centers come in two shapes. A center may take one person
(`Flow.unit_assignment_optimal`), or it may have places that have to
be filled first, each worth a reward, and further places worth nothing
(`Flow.tiered_assignment_optimal`).
-/

namespace PlantManager.Flow

variable {α : Type*}

/-- The items with amount one. -/
def pick : List α → (ℕ → ℤ) → List α
  | [], _ => []
  | item :: rest, amount =>
      if amount 0 = 1 then item :: pick rest fun index => amount (index + 1)
      else pick rest fun index => amount (index + 1)

theorem pick_sublist (items : List α) (amount : ℕ → ℤ) : (pick items amount).Sublist items := by
  induction items generalizing amount with
  | nil => exact .slnil
  | cons item rest ih =>
      rw [pick]
      split
      · exact (ih _).cons_cons item
      · exact (ih _).cons item

/-- Amounts that are zero or one on the indices of a list. -/
def ZeroOne (length : ℕ) (amount : ℕ → ℤ) : Prop :=
  ∀ index < length, amount index = 0 ∨ amount index = 1

variable {amount : ℕ → ℤ}

theorem ZeroOne.tail {length : ℕ} (zeroOne : ZeroOne (length + 1) amount) :
    ZeroOne length fun index => amount (index + 1) :=
  fun index bound => zeroOne (index + 1) (Nat.succ_lt_succ bound)

theorem sum_pick (items : List α) (zeroOne : ZeroOne items.length amount) (weight : α → ℤ) :
    ∑ index : Fin items.length, weight (items.get index) * amount index =
      ((pick items amount).map weight).sum := by
  induction items generalizing amount with
  | nil => rfl
  | cons item rest ih =>
      have tail := ih zeroOne.tail
      have expand := Fin.sum_univ_succ fun index : Fin (rest.length + 1) =>
        weight ((item :: rest).get index) * amount index
      rw [pick]
      refine expand.trans ?_
      rcases zeroOne 0 (Nat.succ_pos _) with zero | one
      · simpa [zero] using tail
      · simpa [one] using tail

theorem count_pick (items : List α) (zeroOne : ZeroOne items.length amount) (holds : α → Prop)
    [DecidablePred holds] :
    ∑ index : Fin items.length, (if holds (items.get index) then amount index else 0) =
      (pick items amount).countP (fun item => holds item) := by
  have indicator := sum_pick items zeroOne fun item => if holds item then 1 else 0
  have counts : ∀ list : List α, (list.map fun item => if holds item then (1 : ℤ) else 0).sum =
      (list.countP fun item => holds item) := by
    intro list
    induction list with
    | nil => rfl
    | cons item rest ih =>
        by_cases here : holds item
        · simp [here, ih, add_comm]
        · simp [here, ih]
  rw [← counts, ← indicator]
  apply Finset.sum_congr rfl
  intro index _
  split <;> simp

theorem length_pick (items : List α) (zeroOne : ZeroOne items.length amount) :
    ∑ index : Fin items.length, amount index = (pick items amount).length := by
  have all := count_pick items zeroOne fun _ => True
  simpa using all

/-- Every list of distinct items is selected by some amounts, up to order. -/
theorem exists_pick_perm [DecidableEq α] (items chosen : List α) (nodup : chosen.Nodup)
    (inside : chosen ⊆ items) :
    ∃ amount : ℕ → ℤ, (∀ index, amount index = 0 ∨ amount index = 1) ∧
      (pick items amount).Perm chosen := by
  induction items generalizing chosen with
  | nil =>
      obtain rfl := List.subset_nil.mp inside
      exact ⟨fun _ => 0, fun _ => Or.inl rfl, .nil⟩
  | cons item rest ih =>
      by_cases present : item ∈ chosen
      · obtain ⟨amount, zeroOne, perm⟩ := ih (chosen.erase item) (nodup.erase item) (by
          intro other member
          obtain ⟨different, member⟩ := nodup.mem_erase_iff.mp member
          exact (List.mem_cons.mp (inside member)).resolve_left different)
        refine ⟨fun index => if index = 0 then 1 else amount (index - 1), fun index => ?_, ?_⟩
        · by_cases first : index = 0
          · exact Or.inr (if_pos first)
          · simpa only [if_neg first] using zeroOne (index - 1)
        · rw [pick, if_pos (if_pos rfl)]
          exact (perm.cons item).trans (List.perm_cons_erase present).symm
      · obtain ⟨amount, zeroOne, perm⟩ := ih chosen nodup (by
          intro other member
          refine (List.mem_cons.mp (inside member)).resolve_left ?_
          rintro rfl
          exact present member)
        refine ⟨fun index => if index = 0 then 0 else amount (index - 1), fun index => ?_, ?_⟩
        · by_cases first : index = 0
          · exact Or.inl (if_pos first)
          · simpa only [if_neg first] using zeroOne (index - 1)
        · rw [pick, if_neg (by simp)]
          simpa only [Nat.succ_ne_zero, ↓reduceIte, Nat.add_sub_cancel] using perm

/-- The items at the positions whose forward arc is used up. -/
theorem pick_eq_filter {items : List α} {indices : List ℕ} (exhausted : α × ℕ → Bool)
    (sameLength : indices.length = items.length)
    (agrees : ∀ index item slot, items[index]? = some item → indices[index]? = some slot →
      (exhausted (item, slot) = true ↔ amount index = 1)) :
    (((items.zip indices).filter exhausted).map Prod.fst) = pick items amount := by
  induction items generalizing indices amount with
  | nil => rfl
  | cons item rest ih =>
      cases indices with
      | nil => simp at sameLength
      | cons slot others =>
          have tail : ((rest.zip others).filter exhausted).map Prod.fst =
              pick rest fun index => amount (index + 1) :=
            ih (Nat.succ.inj sameLength) fun index other position found stored =>
              agrees (index + 1) other position found stored
          have head := agrees 0 item slot rfl rfl
          rw [List.zip_cons_cons, List.filter_cons, pick]
          by_cases used : amount 0 = 1
          · rw [if_pos (head.mpr used), if_pos used, List.map_cons, tail]
          · rw [if_neg fun true => used (head.mp true), if_neg used, tail]

/-- Items that stand for edges from people to centers. -/
structure Offers (α : Type*) where
  people : ℕ
  centers : ℕ
  items : List α
  person : α → ℕ
  center : α → ℕ
  weight : α → ℤ
  person_lt : ∀ item ∈ items, person item < people
  center_lt : ∀ item ∈ items, center item < centers

namespace Offers

variable (offers : Offers α)

/-- The number of chosen items at a center. -/
def load (chosen : List α) (center : ℕ) : ℕ :=
  chosen.countP fun item => offers.center item = center

/-- The weight of the chosen items. -/
def total (chosen : List α) : ℤ := (chosen.map offers.weight).sum

/-- Chosen items that use nobody twice. -/
structure Disjoint (chosen : List α) : Prop where
  inside : chosen ⊆ offers.items
  person_le : ∀ person < offers.people, chosen.countP (fun item => offers.person item = person) ≤ 1

/-- Chosen items that use nobody twice and keep within the limit of every center. -/
structure Admissible (limit : ℕ → ℕ) (chosen : List α) : Prop extends offers.Disjoint chosen where
  load_le : ∀ center < offers.centers, offers.load chosen center ≤ limit center

/-- The items as edges of a transport network with the given arcs into the sink. -/
def transport (sinks : List SinkArc) (inside : ∀ arc ∈ sinks, arc.center < offers.centers) :
    Transport where
  people := offers.people
  centers := offers.centers
  edges := offers.items.map fun item =>
    ⟨offers.person item, offers.center item, offers.weight item⟩
  sinks := sinks
  edge_person := by
    intro edge member
    obtain ⟨item, present, rfl⟩ := List.mem_map.mp member
    exact offers.person_lt item present
  edge_center := by
    intro edge member
    obtain ⟨item, present, rfl⟩ := List.mem_map.mp member
    exact offers.center_lt item present
  sink_center := inside

/-- Whether the forward arc of an item has no capacity left. -/
def exhausted (final : Graph) (entry : α × ℕ) : Bool :=
  (final.arc? (offers.person entry.1 + 1, entry.2)).any fun arc => arc.capacity == 0

/-- The items whose forward arcs have no capacity left. -/
def selection (slots : List ℕ) (final : Graph) : List α :=
  ((offers.items.zip slots).filter (offers.exhausted final)).map Prod.fst

variable {offers}

theorem Disjoint.nodup {chosen : List α} (disjoint : offers.Disjoint chosen) : chosen.Nodup := by
  classical
  rw [List.nodup_iff_count_le_one]
  intro item
  by_cases member : item ∈ chosen
  · refine le_trans ?_ (disjoint.person_le (offers.person item)
      (offers.person_lt item (disjoint.inside member)))
    exact List.countP_mono_left fun other _ same => by
      obtain rfl := beq_iff_eq.mp same
      exact decide_eq_true rfl
  · rw [List.count_eq_zero_of_not_mem member]
    exact Nat.zero_le 1

end Offers

/-- Amounts out of the centers that carry the chosen items away. -/
structure Outflow (offers : Offers α) (sinks : List SinkArc) (out : ℕ → ℤ) (chosen : List α) :
    Prop where
  nonneg : ∀ index < sinks.length, 0 ≤ out index
  le : ∀ index (bound : index < sinks.length), out index ≤ sinks[index].capacity
  balanced : ∀ center < offers.centers, (offers.load chosen center : ℤ) =
    sumIndexed sinks fun index arc => if arc.center = center then out index else 0

/-- The cost of amounts out of the centers. -/
def sinkCost (sinks : List SinkArc) (out : ℕ → ℤ) : ℤ :=
  sumIndexed sinks fun index arc => arc.cost * out index

section Selection

variable {offers : Offers α} {sinks : List SinkArc}
  {inside : ∀ arc ∈ sinks, arc.center < offers.centers}

private theorem sum_edges (term : ℕ → Edge → ℤ) :
    ∑ index : Fin (offers.transport sinks inside).edges.length,
        term index (offers.transport sinks inside).edges[index] =
      ∑ index : Fin offers.items.length, term index
        ⟨offers.person offers.items[index], offers.center offers.items[index],
          offers.weight offers.items[index]⟩ :=
  (sumIndexed_eq_sum _ term).symm.trans (sumIndexed_map _ _ term)

variable {edge : ℕ → ℤ}

section

variable (zeroOne : ZeroOne offers.items.length edge)
include zeroOne

private theorem headcount_transport :
    (offers.transport sinks inside).headcount edge = (pick offers.items edge).length :=
  (sum_edges fun index _ => edge index).trans (length_pick offers.items zeroOne)

private theorem departures_transport (person : ℕ) :
    (offers.transport sinks inside).departures edge person =
      (pick offers.items edge).countP fun item => offers.person item = person :=
  (sum_edges fun index other => if other.person = person then edge index else 0).trans
    (count_pick offers.items zeroOne fun item => offers.person item = person)

private theorem arrivals_transport (center : ℕ) :
    (offers.transport sinks inside).arrivals edge center =
      offers.load (pick offers.items edge) center :=
  (sum_edges fun index other => if other.center = center then edge index else 0).trans
    (count_pick offers.items zeroOne fun item => offers.center item = center)

end

private theorem drained_transport (out : ℕ → ℤ) (center : ℕ) :
    (offers.transport sinks inside).drained out center =
      sumIndexed sinks fun index arc => if arc.center = center then out index else 0 :=
  (sumIndexed_eq_sum sinks fun index arc => if arc.center = center then out index else 0).symm

private theorem cost_transport (zeroOne : ZeroOne offers.items.length edge) (out : ℕ → ℤ) :
    (offers.transport sinks inside).cost edge out =
      offers.total (pick offers.items edge) + sinkCost sinks out := by
  unfold Transport.cost
  congr 1
  · exact (sum_edges fun index other => other.cost * edge index).trans
      (sum_pick offers.items zeroOne offers.weight)
  · exact (sumIndexed_eq_sum sinks fun index arc => arc.cost * out index).symm

variable (inside) in
/-- Chosen items are a flow of the network. -/
private theorem exists_transportFlow {chosen : List α} (disjoint : offers.Disjoint chosen)
    {out : ℕ → ℤ} (outflow : Outflow offers sinks out chosen) :
    ∃ edge, TransportFlow (offers.transport sinks inside) edge out ∧
      ZeroOne offers.items.length edge ∧ (pick offers.items edge).Perm chosen := by
  classical
  obtain ⟨edge, zeroOne, perm⟩ := exists_pick_perm offers.items chosen disjoint.nodup disjoint.inside
  have bounded : ZeroOne offers.items.length edge := fun index _ => zeroOne index
  refine ⟨edge, ⟨?_, ?_, outflow.nonneg, outflow.le, ?_, ?_⟩, bounded, perm⟩
  · intro index _
    rcases zeroOne index with zero | one <;> omega
  · intro index _
    rcases zeroOne index with zero | one <;> omega
  · intro person bound
    rw [departures_transport bounded, perm.countP_eq]
    exact_mod_cast disjoint.person_le person bound
  · intro center bound
    rw [arrivals_transport bounded, drained_transport, ← outflow.balanced center bound]
    exact congrArg Nat.cast (perm.countP_eq _)

variable {specs : List ArcSpec} {edgeOffset sinkOffset : ℕ}

/-- **The selected items are optimal**: they are as many as possible and, for that
many, cheapest together with the amounts out of the centers. -/
theorem selection_optimal
    (layout : Layout (offers.transport sinks inside) specs edgeOffset sinkOffset) {graph : Graph}
    (built : Built specs graph) (slots : List ℕ) (sameLength : slots.length = offers.items.length)
    (stored : ∀ index item, offers.items[index]? = some item →
      slots[index]? = some (slot specs (edgeOffset + index) (offers.person item + 1))) :
    ∃ final, (∀ᶠ fuel in Filter.atTop,
        saturate 0 (1 + offers.people + offers.centers) fuel graph = some final) ∧
      offers.Disjoint (offers.selection slots final) ∧
      ∃ out, Outflow offers sinks out (offers.selection slots final) ∧
        ∀ chosen amount, offers.Disjoint chosen → Outflow offers sinks amount chosen →
          chosen.length ≤ (offers.selection slots final).length ∧
          (chosen.length = (offers.selection slots final).length →
            offers.total (offers.selection slots final) + sinkCost sinks out ≤
              offers.total chosen + sinkCost sinks amount) := by
  obtain ⟨used, final, reached, residual, flow, best⟩ := transport_optimal layout built
  have zeroOne : ZeroOne offers.items.length fun index => (used (edgeOffset + index) : ℤ) := by
    intro index bound
    have low := flow.edge_nonneg index (by simpa [Offers.transport] using bound)
    have high := flow.edge_le index (by simpa [Offers.transport] using bound)
    dsimp only at low high ⊢
    omega
  have selected : offers.selection slots final =
      pick offers.items fun index => (used (edgeOffset + index) : ℤ) := by
    refine pick_eq_filter _ sameLength fun index item position found atSlot => ?_
    have here := stored index item found
    obtain rfl := Option.some.inj (atSlot.symm.trans here)
    obtain ⟨bound, same⟩ := List.getElem?_eq_some_iff.mp found
    have spec : specs[edgeOffset + index]? = some ⟨offers.person item + 1,
        1 + offers.people + offers.center item, 1, offers.weight item⟩ := by
      rw [layout.edge index (by simpa [Offers.transport] using bound)]
      simp [Transport.edgeArcs, Offers.transport, found]
    have forward := residual.forward _ _ spec
    unfold forwardPosition at forward
    unfold Offers.exhausted
    rw [forward]
    have zeroOrOne : (used (edgeOffset + index) : ℤ) = 0 ∨ (used (edgeOffset + index) : ℤ) = 1 :=
      zeroOne index bound
    simp only [Option.any_some, beq_iff_eq]
    omega
  refine ⟨final, reached, ?_, fun index => used (sinkOffset + index), ?_, ?_⟩
  · rw [selected]
    refine ⟨(pick_sublist _ _).subset, fun person bound => ?_⟩
    have once := flow.departures_le person bound
    rw [departures_transport zeroOne] at once
    exact_mod_cast once
  · rw [selected]
    refine ⟨flow.out_nonneg, flow.out_le, fun center bound => ?_⟩
    have balanced := flow.balanced center bound
    rwa [arrivals_transport zeroOne, drained_transport] at balanced
  · intro chosen amount disjoint outflow
    obtain ⟨edge, otherFlow, otherZeroOne, perm⟩ :=
      exists_transportFlow inside disjoint outflow
    obtain ⟨longest, cheapest⟩ := best edge amount otherFlow
    rw [headcount_transport otherZeroOne, headcount_transport zeroOne, perm.length_eq] at *
    rw [selected]
    refine ⟨by exact_mod_cast longest, fun same => ?_⟩
    have compared := cheapest (by exact_mod_cast same)
    rw [cost_transport otherZeroOne, cost_transport zeroOne] at compared
    have total : offers.total (pick offers.items edge) = offers.total chosen :=
      (perm.map offers.weight).sum_eq
    rwa [total] at compared

end Selection

namespace Offers

variable (offers : Offers α)

/-- One arc of capacity one out of every center. -/
def unitSinks : List SinkArc := (List.range offers.centers).map fun center => ⟨center, 1, 0⟩

/-- Two arcs out of every center: one for the places to be filled first, each worth
the reward, and one for the places beyond them. -/
def tieredSinks (required extra : ℕ → ℕ) (reward : ℤ) : List SinkArc :=
  (List.range offers.centers).flatMap fun center =>
    [⟨center, required center, -reward⟩, ⟨center, extra center, 0⟩]

theorem unitSinks_inside : ∀ arc ∈ offers.unitSinks, arc.center < offers.centers := by
  intro arc member
  obtain ⟨center, bound, rfl⟩ := List.mem_map.mp member
  exact List.mem_range.mp bound

theorem tieredSinks_inside (required extra : ℕ → ℕ) (reward : ℤ) :
    ∀ arc ∈ offers.tieredSinks required extra reward, arc.center < offers.centers := by
  intro arc member
  obtain ⟨center, bound, present⟩ := List.mem_flatMap.mp member
  have below := List.mem_range.mp bound
  rcases List.mem_pair.mp present with rfl | rfl <;> exact below

/-- The network whose centers take one person. -/
abbrev unitTransport : Transport := offers.transport offers.unitSinks offers.unitSinks_inside

/-- The network whose centers have places to be filled first. -/
abbrev tieredTransport (required extra : ℕ → ℕ) (reward : ℤ) : Transport :=
  offers.transport (offers.tieredSinks required extra reward)
    (offers.tieredSinks_inside required extra reward)

/-- The places to be filled first that the chosen items fill. -/
def fill (required : ℕ → ℕ) (chosen : List α) : ℤ :=
  ∑ center ∈ Finset.range offers.centers, min (required center : ℤ) (offers.load chosen center)

end Offers

section Sinks

variable {β : Type*}

private theorem sumIndexed_range_map (number : ℕ) (toItem : ℕ → β) (term : ℕ → β → ℤ) :
    sumIndexed ((List.range number).map toItem) term =
      ∑ index ∈ Finset.range number, term index (toItem index) := by
  induction number with
  | zero => rfl
  | succ number ih =>
      rw [List.range_succ, List.map_append, sumIndexed_append, ih, Finset.sum_range_succ]
      simp [sumIndexed]

private theorem length_flatMap_pair (number : ℕ) (first second : ℕ → β) :
    ((List.range number).flatMap fun index => [first index, second index]).length = 2 * number := by
  induction number with
  | zero => rfl
  | succ number ih =>
      rw [List.range_succ, List.flatMap_append, List.length_append, ih]
      simp [Nat.mul_succ]

private theorem sumIndexed_flatMap_pair (number : ℕ) (first second : ℕ → β) (term : ℕ → β → ℤ) :
    sumIndexed ((List.range number).flatMap fun index => [first index, second index]) term =
      ∑ index ∈ Finset.range number,
        (term (2 * index) (first index) + term (2 * index + 1) (second index)) := by
  induction number with
  | zero => rfl
  | succ number ih =>
      rw [List.range_succ, List.flatMap_append, sumIndexed_append, ih, Finset.sum_range_succ,
        length_flatMap_pair]
      simp [sumIndexed]

private theorem getElem?_flatMap_pair (number : ℕ) (first second : ℕ → β) {index : ℕ}
    (bound : index < number) :
    ((List.range number).flatMap fun index => [first index, second index])[2 * index]? =
        some (first index) ∧
      ((List.range number).flatMap fun index => [first index, second index])[2 * index + 1]? =
        some (second index) := by
  induction number with
  | zero => exact absurd bound (Nat.not_lt_zero index)
  | succ number ih =>
      rw [List.range_succ, List.flatMap_append]
      rcases Nat.lt_succ_iff_lt_or_eq.mp bound with earlier | rfl
      · have length := length_flatMap_pair number first second
        rw [List.getElem?_append_left (by omega), List.getElem?_append_left (by omega)]
        exact ih earlier
      · have length := length_flatMap_pair index first second
        rw [List.getElem?_append_right (by omega), List.getElem?_append_right (by omega), length]
        simp

end Sinks

section Shapes

variable (offers : Offers α)

theorem unitSinks_balance (out : ℕ → ℤ) {center : ℕ} (bound : center < offers.centers) :
    (sumIndexed offers.unitSinks fun index arc => if arc.center = center then out index else 0) =
      out center := by
  unfold Offers.unitSinks
  rw [sumIndexed_range_map, Finset.sum_ite_eq' (Finset.range offers.centers) center]
  exact if_pos (Finset.mem_range.mpr bound)

theorem unitSinks_cost (out : ℕ → ℤ) : sinkCost offers.unitSinks out = 0 := by
  unfold sinkCost Offers.unitSinks
  rw [sumIndexed_range_map]
  exact Finset.sum_eq_zero fun index _ => zero_mul _

private theorem admissible_unit {chosen : List α} (disjoint : offers.Disjoint chosen) {out : ℕ → ℤ}
    (outflow : Outflow offers offers.unitSinks out chosen) :
    offers.Admissible (fun _ => 1) chosen := by
  refine ⟨disjoint, fun center bound => ?_⟩
  have balanced := outflow.balanced center bound
  rw [unitSinks_balance offers out bound] at balanced
  have length : center < offers.unitSinks.length := by simpa [Offers.unitSinks] using bound
  have high := outflow.le center length
  simp only [Offers.unitSinks, List.getElem_map, List.getElem_range] at high
  omega

private theorem outflow_unit {chosen : List α} (admissible : offers.Admissible (fun _ => 1) chosen) :
    Outflow offers offers.unitSinks (fun center => offers.load chosen center) chosen := by
  refine ⟨fun index _ => Int.natCast_nonneg _, fun index bound => ?_, fun center bound => ?_⟩
  · have below : index < offers.centers := by simpa [Offers.unitSinks] using bound
    have limited := admissible.load_le index below
    simp only [Offers.unitSinks, List.getElem_map]
    exact_mod_cast limited
  · exact (unitSinks_balance offers (fun index => (offers.load chosen index : ℤ)) bound).symm

/-- **Centers that take one person**: the selected items are an assignment, no
assignment is larger, and none of the same size weighs less. -/
theorem unit_assignment_optimal {people sinks : Graph} {added : Graph × List ℕ}
    (peopleAdded : people = (addArcs emptyGraph offers.unitTransport.personArcs).1)
    (sinksAdded : sinks = (addArcs people offers.unitTransport.sinkArcs).1)
    (edgesAdded : added = addArcs sinks offers.unitTransport.edgeArcs) :
    ∃ final, (∀ᶠ fuel in Filter.atTop,
        saturate 0 (1 + offers.people + offers.centers) fuel added.1 = some final) ∧
      offers.Admissible (fun _ => 1) (offers.selection added.2 final) ∧
      ∀ chosen, offers.Admissible (fun _ => 1) chosen →
        chosen.length ≤ (offers.selection added.2 final).length ∧
        (chosen.length = (offers.selection added.2 final).length →
          offers.total (offers.selection added.2 final) ≤ offers.total chosen) := by
  have layout := offers.unitTransport.layout_sinks_first
  have loopless := layout.loopless
  obtain ⟨peopleBuilt, -, -⟩ := built_empty.addArcs offers.unitTransport.personArcs
    fun spec member => loopless spec (List.mem_append_left _ (List.mem_append_left _ member))
  obtain ⟨sinksBuilt, -, -⟩ := peopleBuilt.addArcs offers.unitTransport.sinkArcs
    fun spec member => loopless spec (List.mem_append_left _ (List.mem_append_right _ member))
  obtain ⟨built, length, slots⟩ := sinksBuilt.addArcs offers.unitTransport.edgeArcs
    fun spec member => loopless spec (List.mem_append_right _ member)
  rw [← peopleAdded, ← sinksAdded, ← edgesAdded] at built length slots
  obtain ⟨final, reached, disjoint, out, outflow, best⟩ := selection_optimal layout built
    added.2 (by rw [length]; simp [Offers.transport]) (by
      intro index item found
      have spec : offers.unitTransport.edgeArcs[index]? = some ⟨offers.person item + 1,
          1 + offers.people + offers.center item, 1, offers.weight item⟩ := by
        simp [Transport.edgeArcs, Offers.transport, found]
      have here := slots index _ spec
      simpa using here)
  refine ⟨final, reached, admissible_unit offers disjoint outflow, fun chosen admissible => ?_⟩
  obtain ⟨longest, cheapest⟩ := best chosen _ admissible.toDisjoint (outflow_unit offers admissible)
  refine ⟨longest, fun same => ?_⟩
  have compared := cheapest same
  rwa [unitSinks_cost, unitSinks_cost, add_zero, add_zero] at compared

section Tiered

variable (required extra : ℕ → ℕ) (reward : ℤ)

variable {center : ℕ}

theorem tieredSinks_balance (out : ℕ → ℤ) (bound : center < offers.centers) :
    (sumIndexed (offers.tieredSinks required extra reward) fun index arc =>
        if arc.center = center then out index else 0) =
      out (2 * center) + out (2 * center + 1) := by
  unfold Offers.tieredSinks
  rw [sumIndexed_flatMap_pair]
  have single := Finset.sum_ite_eq' (Finset.range offers.centers) center fun index =>
    out (2 * index) + out (2 * index + 1)
  rw [if_pos (Finset.mem_range.mpr bound)] at single
  rw [← single]
  apply Finset.sum_congr rfl
  intro index _
  by_cases here : index = center
  · simp only [if_pos here]
  · simp only [if_neg here, add_zero]

theorem tieredSinks_cost (out : ℕ → ℤ) :
    sinkCost (offers.tieredSinks required extra reward) out =
      -reward * ∑ center ∈ Finset.range offers.centers, out (2 * center) := by
  unfold sinkCost Offers.tieredSinks
  rw [sumIndexed_flatMap_pair, Finset.mul_sum]
  apply Finset.sum_congr rfl
  intro index _
  ring

theorem tieredSinks_capacity (bound : center < offers.centers) :
    (offers.tieredSinks required extra reward)[2 * center]? =
        some ⟨center, required center, -reward⟩ ∧
      (offers.tieredSinks required extra reward)[2 * center + 1]? =
        some ⟨center, extra center, 0⟩ :=
  getElem?_flatMap_pair offers.centers _ _ bound

variable {required extra reward}

/-- Amounts out of the centers fill at most the places to be filled first. -/
private theorem outflow_tiered_le {chosen : List α} {out : ℕ → ℤ}
    (outflow : Outflow offers (offers.tieredSinks required extra reward) out chosen)
    (bound : center < offers.centers) :
    out (2 * center) ≤ min (required center : ℤ) (offers.load chosen center) ∧
      offers.load chosen center ≤ required center + extra center := by
  have balanced := outflow.balanced center bound
  rw [tieredSinks_balance offers required extra reward out bound] at balanced
  obtain ⟨first, second⟩ := tieredSinks_capacity offers required extra reward bound
  obtain ⟨firstBound, firstArc⟩ := List.getElem?_eq_some_iff.mp first
  obtain ⟨secondBound, secondArc⟩ := List.getElem?_eq_some_iff.mp second
  have firstHigh := outflow.le _ firstBound
  have secondHigh := outflow.le _ secondBound
  have secondLow := outflow.nonneg _ secondBound
  rw [firstArc] at firstHigh
  rw [secondArc] at secondHigh
  dsimp only at firstHigh secondHigh
  omega

/-- Amounts that fill the places of each center in order. -/
def fillAmounts (offers : Offers α) (required : ℕ → ℕ) (chosen : List α) (index : ℕ) : ℤ :=
  if index % 2 = 0 then min (required (index / 2) : ℤ) (offers.load chosen (index / 2))
  else offers.load chosen (index / 2) -
    min (required (index / 2) : ℤ) (offers.load chosen (index / 2))

private theorem fillAmounts_first (chosen : List α) (center : ℕ) :
    fillAmounts offers required chosen (2 * center) =
      min (required center : ℤ) (offers.load chosen center) := by
  unfold fillAmounts
  rw [if_pos (Nat.mul_mod_right 2 center), Nat.mul_div_cancel_left center (by decide)]

private theorem fillAmounts_second (chosen : List α) (center : ℕ) :
    fillAmounts offers required chosen (2 * center + 1) =
      offers.load chosen center - min (required center : ℤ) (offers.load chosen center) := by
  unfold fillAmounts
  rw [if_neg (by omega), show (2 * center + 1) / 2 = center by omega]

private theorem outflow_tiered {chosen : List α}
    (admissible : offers.Admissible (fun center => required center + extra center) chosen) :
    Outflow offers (offers.tieredSinks required extra reward)
      (fillAmounts offers required chosen) chosen := by
  have length : (offers.tieredSinks required extra reward).length = 2 * offers.centers :=
    length_flatMap_pair offers.centers _ _
  refine ⟨fun index bound => ?_, fun index bound => ?_, fun center bound => ?_⟩
  · unfold fillAmounts
    split <;> omega
  · have below : index / 2 < offers.centers := by omega
    obtain ⟨first, second⟩ := tieredSinks_capacity offers required extra reward below
    have limited := admissible.load_le _ below
    rcases Nat.even_or_odd' index with ⟨center, rfl | rfl⟩
    · rw [Nat.mul_div_cancel_left center (by decide)] at first limited
      rw [(List.getElem?_eq_some_iff.mp first).2, fillAmounts_first]
      exact min_le_left _ _
    · rw [show (2 * center + 1) / 2 = center by omega] at second limited
      rw [(List.getElem?_eq_some_iff.mp second).2, fillAmounts_second]
      dsimp only
      omega
  · rw [tieredSinks_balance offers required extra reward _ bound, fillAmounts_first,
      fillAmounts_second]
    ring

private theorem fill_fillAmounts (chosen : List α) :
    sinkCost (offers.tieredSinks required extra reward) (fillAmounts offers required chosen) =
      -reward * offers.fill required chosen := by
  rw [tieredSinks_cost]
  congr 1
  exact Finset.sum_congr rfl fun center _ => fillAmounts_first offers chosen center

/-- **Centers with places to be filled first**: the selected items are an
assignment, no assignment is larger, and none of the same size is better when the
reward of the places filled is taken off the weight. -/
theorem tiered_assignment_optimal (rewarding : 0 ≤ reward) {people final : Graph}
    {added : Graph × List ℕ}
    (peopleAdded : people =
      (addArcs emptyGraph (offers.tieredTransport required extra reward).personArcs).1)
    (edgesAdded : added = addArcs people (offers.tieredTransport required extra reward).edgeArcs)
    (sinksAdded : final =
      (addArcs added.1 (offers.tieredTransport required extra reward).sinkArcs).1) :
    ∃ saturated, (∀ᶠ fuel in Filter.atTop,
        saturate 0 (1 + offers.people + offers.centers) fuel final = some saturated) ∧
      offers.Admissible (fun center => required center + extra center)
        (offers.selection added.2 saturated) ∧
      ∀ chosen, offers.Admissible (fun center => required center + extra center) chosen →
        chosen.length ≤ (offers.selection added.2 saturated).length ∧
        (chosen.length = (offers.selection added.2 saturated).length →
          offers.total (offers.selection added.2 saturated) -
              reward * offers.fill required (offers.selection added.2 saturated) ≤
            offers.total chosen - reward * offers.fill required chosen) := by
  have layout := (offers.tieredTransport required extra reward).layout_edges_first
  have loopless := layout.loopless
  obtain ⟨peopleBuilt, -, -⟩ := built_empty.addArcs
    (offers.tieredTransport required extra reward).personArcs
    fun spec member => loopless spec (List.mem_append_left _ (List.mem_append_left _ member))
  obtain ⟨edgesBuilt, length, slots⟩ := peopleBuilt.addArcs
    (offers.tieredTransport required extra reward).edgeArcs
    fun spec member => loopless spec (List.mem_append_left _ (List.mem_append_right _ member))
  rw [← peopleAdded, ← edgesAdded] at edgesBuilt length slots
  obtain ⟨built, -, -⟩ := edgesBuilt.addArcs
    (offers.tieredTransport required extra reward).sinkArcs
    fun spec member => loopless spec (List.mem_append_right _ member)
  rw [← sinksAdded] at built
  obtain ⟨saturated, reached, disjoint, out, outflow, best⟩ := selection_optimal layout built
    added.2 (by rw [length]; simp [Offers.transport]) (by
      intro index item found
      obtain ⟨bound, -⟩ := List.getElem?_eq_some_iff.mp found
      have spec : (offers.tieredTransport required extra reward).edgeArcs[index]? =
          some ⟨offers.person item + 1, 1 + offers.people + offers.center item, 1,
            offers.weight item⟩ := by
        simp [Transport.edgeArcs, Offers.transport, found]
      have inBlocks : slot ([] ++ (offers.tieredTransport required extra reward).personArcs ++
            (offers.tieredTransport required extra reward).edgeArcs ++
            (offers.tieredTransport required extra reward).sinkArcs)
          ((offers.tieredTransport required extra reward).people + index) (offers.person item + 1) =
          slot ([] ++ (offers.tieredTransport required extra reward).personArcs ++
            (offers.tieredTransport required extra reward).edgeArcs)
          ((offers.tieredTransport required extra reward).people + index)
            (offers.person item + 1) :=
        slot_append_of_lt (by simp [Offers.transport, bound.le]) _
      rw [slots index _ spec]
      simpa using inBlocks.symm)
  refine ⟨saturated, reached, ⟨disjoint, fun center bound =>
    (outflow_tiered_le offers outflow bound).2⟩, fun chosen admissible => ?_⟩
  obtain ⟨longest, cheapest⟩ := best chosen _ admissible.toDisjoint (outflow_tiered offers admissible)
  refine ⟨longest, fun same => ?_⟩
  have compared := cheapest same
  rw [fill_fillAmounts, tieredSinks_cost] at compared
  have filled : reward * ∑ center ∈ Finset.range offers.centers, out (2 * center) ≤
      reward * offers.fill required (offers.selection added.2 saturated) :=
    mul_le_mul_of_nonneg_left (Finset.sum_le_sum fun center member =>
      (outflow_tiered_le offers outflow (Finset.mem_range.mp member)).1) rewarding
  linarith

end Tiered

end Shapes

end PlantManager.Flow

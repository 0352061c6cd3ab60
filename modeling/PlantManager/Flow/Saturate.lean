import PlantManager.Flow.Network
import PlantManager.Flow.ShortestPath

/-! # Successive shortest paths

Starting from a residual graph with nothing sent, one unit at a time is sent
along a cheapest path from the source to the sink, until no path is left. A
feasible potential is carried along: the distances of a finished search are
again a potential, under which every arc of the chosen path has reduced cost
zero, so the reversed arcs stay feasible
(`Flow.Feasible.push`).

The amounts sent at the end form a maximum flow that is cheapest among the
maximum flows (`Flow.saturate_optimal`).
-/

namespace PlantManager.Flow

/-- Send one unit back along the predecessor pointers, from a node to the source. -/
def augment (previous : ℕ → Option Position) (source : ℕ) : ℕ → ℕ → Graph → Option Graph
  | 0, _, _ => none
  | fuel + 1, node, graph =>
      if node = source then some graph
      else
        match previous node with
        | none => none
        | some position => augment previous source fuel position.1 (graph.push position)

/-- Augment along cheapest paths until the sink is out of reach. -/
def saturate (source sink : ℕ) : ℕ → Graph → Option Graph
  | 0, _ => none
  | fuel + 1, graph =>
      (settle graph fuel (startSearch source)).bind fun search =>
        if search.previous sink = none then some graph
        else (augment search.previous source fuel sink graph).bind (saturate source sink fuel)

theorem augment_mono {previous : ℕ → Option Position} {source : ℕ} {fuel more : ℕ}
    (enough : fuel ≤ more) {node : ℕ} {graph final : Graph}
    (finished : augment previous source fuel node graph = some final) :
    augment previous source more node graph = some final := by
  induction fuel generalizing node graph more with
  | zero => simp [augment] at finished
  | succ fuel ih =>
      obtain ⟨extra, rfl⟩ : ∃ extra, more = extra + 1 := ⟨more - 1, by omega⟩
      rw [augment] at finished ⊢
      by_cases arrived : node = source
      · rwa [if_pos arrived] at finished ⊢
      · rw [if_neg arrived] at finished ⊢
        cases pointer : previous node with
        | none => rw [pointer] at finished; simp at finished
        | some position =>
            rw [pointer] at finished
            exact ih (by omega) finished

/-- More fuel does not change the saturated graph. -/
theorem saturate_mono {source sink : ℕ} {fuel more : ℕ} (enough : fuel ≤ more)
    {graph final : Graph} (finished : saturate source sink fuel graph = some final) :
    saturate source sink more graph = some final := by
  induction fuel generalizing graph more with
  | zero => simp [saturate] at finished
  | succ fuel ih =>
      obtain ⟨extra, rfl⟩ : ∃ extra, more = extra + 1 := ⟨more - 1, by omega⟩
      have less : fuel ≤ extra := by omega
      obtain ⟨search, settled, rest⟩ := Option.bind_eq_some_iff.mp finished
      refine Option.bind_eq_some_iff.mpr ⟨search, settle_mono less settled, ?_⟩
      by_cases unreached : search.previous sink = none
      · rwa [if_pos unreached] at rest ⊢
      · rw [if_neg unreached] at rest ⊢
        obtain ⟨next, augmented, further⟩ := Option.bind_eq_some_iff.mp rest
        exact Option.bind_eq_some_iff.mpr ⟨next, augment_mono less augmented, ih less further⟩

/-- The network described by arc specifications. -/
def network (specs : List ArcSpec) : Network ℕ (Fin specs.length) ℤ where
  tail := fun arc => specs[arc].start
  head := fun arc => specs[arc].stop
  capacity := fun arc => specs[arc].capacity
  cost := fun arc => specs[arc].cost

/-- The amounts sent, by arc index. -/
def amounts (specs : List ArcSpec) (used : ℕ → ℕ) : Fin specs.length → ℤ :=
  fun arc => used arc

/-- The residual graph of amounts within the capacities. -/
structure Sending (specs : List ArcSpec) (used : ℕ → ℕ) (graph : Graph) : Prop where
  residual : Residual specs used graph
  within : ∀ index spec, specs[index]? = some spec → used index ≤ spec.capacity

section Push

variable {specs : List ArcSpec} {used : ℕ → ℕ} {graph : Graph}

variable {position : Position}

/-- The two ends of an arc and its reverse are at different positions. -/
theorem Residual.apart (residual : Residual specs used graph) (loopless : Loopless specs)
    {arc : Arc} (stored : graph.arc? position = some arc) :
    position ≠ (arc.toNode, arc.reverse) ∧
      ∃ back, graph.arc? (arc.toNode, arc.reverse) = some back ∧ back.toNode = position.1 ∧
        back.cost = -arc.cost := by
  obtain ⟨index, spec, present, rfl | rfl⟩ := residual.complete position arc stored
  · obtain rfl := Option.some.inj ((residual.forward index spec present).symm.trans stored)
    exact ⟨forward_ne_backward loopless present present, _, residual.backward index spec present,
      rfl, rfl⟩
  · obtain rfl := Option.some.inj ((residual.backward index spec present).symm.trans stored)
    exact ⟨(forward_ne_backward loopless present present).symm, _,
      residual.forward index spec present, rfl, (neg_neg _).symm⟩

/-- A push along an arc of reduced cost zero keeps a potential feasible: the only
arc that gains capacity is the reverse, whose reduced cost is zero as well. -/
theorem Feasible.push {potential : ℕ → ℤ} (feasible : Feasible graph potential)
    (residual : Residual specs used graph) (loopless : Loopless specs) {arc : Arc}
    (stored : graph.arc? position = some arc)
    (tight : arc.cost + potential position.1 - potential arc.toNode = 0) :
    Feasible (graph.push position) potential := by
  obtain ⟨apart, back, backStored, backTarget, backCost⟩ := residual.apart loopless stored
  intro other found kept positive
  rw [graph.arc?_push position other arc stored apart] at kept
  split at kept
  · rename_i same
    obtain rfl := Option.some.inj kept
    rw [same]
    exact tight.ge
  · split at kept
    · rename_i same
      subst same
      rw [backStored] at kept
      obtain rfl := Option.some.inj kept
      simp only [backTarget, backCost]
      omega
    · exact feasible other found kept positive

/-- A push moves one unit from the node of the position to the target of its arc. -/
theorem Sending.push (sending : Sending specs used graph) (loopless : Loopless specs) {arc : Arc}
    (stored : graph.arc? position = some arc) (positive : 0 < arc.capacity) :
    ∃ next, Sending specs next (graph.push position) ∧
      ∀ vertex, (network specs).net (amounts specs next) vertex =
        (network specs).net (amounts specs used) vertex +
          ((if position.1 = vertex then 1 else 0) - if arc.toNode = vertex then 1 else 0) := by
  obtain ⟨index, spec, present, rfl | rfl⟩ := sending.residual.complete position arc stored
  · obtain rfl := Option.some.inj ((sending.residual.forward index spec present).symm.trans stored)
    obtain ⟨bound, isSpec⟩ := List.getElem?_eq_some_iff.mp present
    refine ⟨_, ⟨sending.residual.push_forward loopless present, ?_⟩, ?_⟩
    · intro other otherSpec found
      by_cases same : other = index
      · subst same
        obtain rfl := Option.some.inj (present.symm.trans found)
        simp only at positive
        rw [Function.update_self]
        omega
      · rw [Function.update_of_ne same]
        exact sending.within other otherSpec found
    · intro vertex
      have sent : amounts specs (Function.update used index (used index + 1)) =
          fun other => amounts specs used other + if other = ⟨index, bound⟩ then 1 else 0 := by
        funext other
        by_cases same : other = ⟨index, bound⟩
        · subst same; simp [amounts]
        · have different : (other : ℕ) ≠ index := fun equal => same (Fin.ext equal)
          simp [amounts, same, Function.update_of_ne different]
      have tail : (network specs).tail ⟨index, bound⟩ = spec.start := congrArg ArcSpec.start isSpec
      have head : (network specs).head ⟨index, bound⟩ = spec.stop := congrArg ArcSpec.stop isSpec
      rw [sent, Network.net_add_single, tail, head]
      rfl
  · obtain rfl := Option.some.inj ((sending.residual.backward index spec present).symm.trans stored)
    obtain ⟨bound, isSpec⟩ := List.getElem?_eq_some_iff.mp present
    simp only at positive
    refine ⟨_, ⟨sending.residual.push_backward loopless sending.within present positive, ?_⟩, ?_⟩
    · intro other otherSpec found
      by_cases same : other = index
      · subst same
        have before := sending.within other otherSpec found
        rw [Function.update_self]
        omega
      · rw [Function.update_of_ne same]
        exact sending.within other otherSpec found
    · intro vertex
      have sent : amounts specs (Function.update used index (used index - 1)) =
          fun other => amounts specs used other + if other = ⟨index, bound⟩ then -1 else 0 := by
        funext other
        by_cases same : other = ⟨index, bound⟩
        · subst same
          simp only [amounts, Function.update_self, ↓reduceIte]
          omega
        · have different : (other : ℕ) ≠ index := fun equal => same (Fin.ext equal)
          simp [amounts, same, Function.update_of_ne different]
      have tail : (network specs).tail ⟨index, bound⟩ = spec.start := congrArg ArcSpec.start isSpec
      have head : (network specs).head ⟨index, bound⟩ = spec.stop := congrArg ArcSpec.stop isSpec
      rw [sent, Network.net_add_single, tail, head]
      change _ = _ + ((if spec.stop = vertex then 1 else 0) - if spec.start = vertex then 1 else 0)
      split <;> split <;> simp

end Push

/-- Every node down to this depth is entered by a usable arc of reduced cost zero. -/
def OpenDown (graph : Graph) (previous : ℕ → Option Position) (source : ℕ) (potential : ℕ → ℤ)
    (depth : ℕ) : Prop :=
  ∀ node below, below ≤ depth → RootedAt previous source below node → node ≠ source →
    ∃ position arc, previous node = some position ∧ graph.arc? position = some arc ∧
      arc.toNode = node ∧ 0 < arc.capacity ∧ arc.cost + potential position.1 - potential node = 0

/-- Walking the pointers back from a node sends one unit from the source to it. -/
theorem augment_spec {specs : List ArcSpec} (loopless : Loopless specs)
    {previous : ℕ → Option Position} {source : ℕ} {potential : ℕ → ℤ} {depth node : ℕ}
    (rooted : RootedAt previous source depth node) {used : ℕ → ℕ} {graph : Graph}
    (sending : Sending specs used graph) (feasible : Feasible graph potential)
    (isOpen : OpenDown graph previous source potential depth) :
    ∃ next final, (∀ fuel, depth < fuel → augment previous source fuel node graph = some final) ∧
      Sending specs next final ∧ Feasible final potential ∧
      ∀ vertex, (network specs).net (amounts specs next) vertex =
        (network specs).net (amounts specs used) vertex +
          ((if source = vertex then 1 else 0) - if node = vertex then 1 else 0) := by
  induction rooted generalizing used graph with
  | root =>
      refine ⟨used, graph, fun fuel large => ?_, sending, feasible, fun vertex => ?_⟩
      · obtain ⟨less, rfl⟩ : ∃ less, fuel = less + 1 := ⟨fuel - 1, by omega⟩
        rw [augment, if_pos rfl]
      · rw [sub_self, add_zero]
  | @step node prior index depth different pointer below ih =>
      have rooted := RootedAt.step different pointer below
      obtain ⟨position, arc, found, stored, target, positive, tight⟩ :=
        isOpen node (depth + 1) le_rfl rooted different
      obtain rfl := Option.some.inj (pointer.symm.trans found)
      subst target
      obtain ⟨pushed, pushedSending, moved⟩ := sending.push loopless stored positive
      have pushedFeasible := feasible.push sending.residual loopless stored tight
      have apart := (sending.residual.apart loopless stored).1
      have pushedOpen : OpenDown (graph.push (prior, index)) previous source potential depth := by
        intro other deeper bound otherRooted otherDifferent
        obtain ⟨otherPosition, otherArc, otherPointer, otherStored, otherTarget, otherPositive,
          otherTight⟩ := isOpen other deeper (bound.trans (Nat.le_succ _)) otherRooted otherDifferent
        have elsewhere : otherPosition ≠ (prior, index) := by
          rintro rfl
          obtain rfl := Option.some.inj (otherStored.symm.trans stored)
          rw [← otherTarget] at otherRooted
          have same := otherRooted.unique rooted
          omega
        by_cases atBack : otherPosition = (arc.toNode, arc.reverse)
        · refine ⟨otherPosition, { otherArc with capacity := otherArc.capacity + 1 }, otherPointer,
            ?_, otherTarget, Nat.succ_pos _, otherTight⟩
          rw [graph.arc?_push _ _ arc stored apart, if_neg elsewhere, if_pos atBack, otherStored]
          rfl
        · refine ⟨otherPosition, otherArc, otherPointer, ?_, otherTarget, otherPositive, otherTight⟩
          rw [graph.arc?_push _ _ arc stored apart, if_neg elsewhere, if_neg atBack, otherStored]
      obtain ⟨next, final, reaches, finalSending, finalFeasible, total⟩ :=
        ih pushedSending pushedFeasible pushedOpen
      refine ⟨next, final, fun fuel large => ?_, finalSending, finalFeasible, fun vertex => ?_⟩
      · obtain ⟨less, rfl⟩ : ∃ less, fuel = less + 1 := ⟨fuel - 1, by omega⟩
        rw [augment, if_neg different, pointer]
        exact reaches less (by omega)
      · rw [total vertex, moved vertex]
        ring

section Potential

variable {graph : Graph} {source : ℕ} {potential : ℕ → ℤ} {search : Search}

/-- The distances of a search, with a bound for the nodes it did not reach. -/
def distancePotential (potential : ℕ → ℤ) (search : Search) (bound : ℤ) (node : ℕ) : ℤ :=
  match search.distance node with
  | some label => label
  | none => potential node + bound

private theorem exists_bound (potential : ℕ → ℤ) (search : Search) (nodes : Finset ℕ) :
    ∃ bound : ℤ, ∀ node ∈ nodes, ∀ label, search.distance node = some label →
      label - potential node ≤ bound := by
  induction nodes using Finset.induction with
  | empty => exact ⟨0, fun node member => absurd member (Finset.notMem_empty node)⟩
  | insert node nodes _ ih =>
      obtain ⟨bound, bounded⟩ := ih
      cases known : search.distance node with
      | none =>
          refine ⟨bound, fun other member label found => ?_⟩
          rcases Finset.mem_insert.mp member with rfl | member
          · rw [known] at found; cases found
          · exact bounded other member label found
      | some value =>
          refine ⟨max bound (value - potential node), fun other member label found => ?_⟩
          rcases Finset.mem_insert.mp member with rfl | member
          · obtain rfl := Option.some.inj (known.symm.trans found)
            exact le_max_right _ _
          · exact (bounded other member label found).trans (le_max_left _ _)

/-- The distances of a finished search form a feasible potential, under which the
arcs of the predecessor pointers have reduced cost zero. -/
theorem Finished.exists_potential (finished : Finished graph source potential search)
    (feasible : Feasible graph potential) (nodes : Finset ℕ)
    (closed : ∀ position arc, graph.arc? position = some arc → arc.toNode ∈ nodes) :
    ∃ next, Feasible graph next ∧ ∀ depth, OpenDown graph search.previous source next depth := by
  obtain ⟨bound, bounded⟩ := exists_bound potential search nodes
  refine ⟨distancePotential potential search bound, ?_, ?_⟩
  · rintro ⟨node, index⟩ arc stored positive
    have reduced := feasible _ arc stored positive
    simp only at reduced ⊢
    cases fromLabel : search.distance node with
    | some label =>
        obtain ⟨reached, known, small⟩ := finished.settled node label fromLabel index arc stored positive
        simp only [distancePotential, fromLabel, known]
        omega
    | none =>
        cases known : search.distance arc.toNode with
        | none => simp only [distancePotential, fromLabel, known]; omega
        | some label =>
            have small := bounded arc.toNode (closed _ arc stored) label known
            simp only [distancePotential, fromLabel, known]
            omega
  · intro depth node below _ rooted different
    obtain ⟨label, known⟩ : ∃ label, search.distance node = some label := by
      cases rooted with
      | root => exact absurd rfl different
      | step _ pointer _ =>
          cases known : search.distance node with
          | some label => exact ⟨label, rfl⟩
          | none =>
              rw [finished.valid.unlabelled node known] at pointer
              cases pointer
    obtain ⟨prior, index, arc, before, pointer, stored, target, positive, priorLabel, shorter⟩ :=
      finished.valid.traced node label different known
    refine ⟨(prior, index), arc, pointer, stored, target, positive, ?_⟩
    obtain ⟨reached, targetLabel, small⟩ :=
      finished.settled prior before priorLabel index arc stored positive
    rw [target, known] at targetLabel
    obtain rfl := Option.some.inj targetLabel
    simp only [distancePotential, priorLabel, known]
    omega

end Potential

/-- The amounts form a maximum flow, and no maximum flow is cheaper. -/
structure Optimal (specs : List ArcSpec) (source sink : ℕ) (used : ℕ → ℕ) : Prop where
  isFlow : (network specs).IsFlow source sink (amounts specs used)
  maximal : ∀ other, (network specs).IsFlow source sink other →
    (network specs).net other source ≤ (network specs).net (amounts specs used) source
  cheapest : ∀ other, (network specs).IsFlow source sink other →
    (network specs).net other source = (network specs).net (amounts specs used) source →
    (network specs).totalCost (amounts specs used) ≤ (network specs).totalCost other

section Optimality

variable {specs : List ArcSpec} {source sink : ℕ} {used : ℕ → ℕ} {graph : Graph}

theorem Sending.isFlow (sending : Sending specs used graph)
    (conserved : ∀ vertex, vertex ≠ source → vertex ≠ sink →
      (network specs).net (amounts specs used) vertex = 0) :
    (network specs).IsFlow source sink (amounts specs used) := by
  refine ⟨fun arc => Int.natCast_nonneg _, fun arc => ?_, conserved⟩
  exact Int.ofNat_le.mpr (sending.within arc specs[arc] (List.getElem?_eq_getElem arc.isLt))

/-- When the search no longer reaches the sink, the flow is optimal: the reached
nodes form the cut, and the potential certifies the cost. -/
theorem Sending.optimal (sending : Sending specs used graph) (different : source ≠ sink)
    (conserved : ∀ vertex, vertex ≠ source → vertex ≠ sink →
      (network specs).net (amounts specs used) vertex = 0)
    {potential : ℕ → ℤ} {search : Search} (feasible : Feasible graph potential)
    (finished : Finished graph source potential search) (unreached : search.previous sink = none) :
    Optimal specs source sink used := by
  have isFlow := sending.isFlow conserved
  have stored : ∀ arc : Fin specs.length, specs[(arc : ℕ)]? = some specs[arc] := fun arc =>
    List.getElem?_eq_getElem arc.isLt
  have forward := fun arc : Fin specs.length => sending.residual.forward arc _ (stored arc)
  have backward := fun arc : Fin specs.length => sending.residual.backward arc _ (stored arc)
  have reaches : ∀ position arc, graph.arc? position = some arc → 0 < arc.capacity →
      search.distance position.1 ≠ none → search.distance arc.toNode ≠ none := by
    intro position arc found positive known
    obtain ⟨label, known⟩ := Option.ne_none_iff_exists'.mp known
    obtain ⟨reached, target, -⟩ := finished.settled _ label known position.2 arc found positive
    rw [target]
    exact Option.some_ne_none _
  refine ⟨isFlow, fun other otherFlow => ?_, fun other otherFlow sameValue => ?_⟩
  · refine (network specs).value_le_of_cut (fun node => search.distance node ≠ none) isFlow
      ?_ ?_ ?_ ?_ otherFlow
    · rw [finished.valid.source_zero]
      exact Option.some_ne_none _
    · intro labelled
      obtain ⟨label, known⟩ := Option.ne_none_iff_exists'.mp labelled
      obtain ⟨prior, index, arc, before, pointer, -⟩ :=
        finished.valid.traced sink label different.symm known
      rw [unreached] at pointer
      cases pointer
    · intro arc inside outside
      by_contra notFull
      have fits := sending.within arc _ (stored arc)
      have room : used arc < specs[arc].capacity := by
        refine lt_of_le_of_ne fits fun equal => notFull ?_
        simp only [amounts, network, equal]
      exact outside (reaches _ _ (forward arc) (by simp only; omega) inside)
    · intro arc outside inside
      by_contra inUse
      have positive : 0 < used arc := by
        refine Nat.pos_of_ne_zero fun zero => inUse ?_
        simp only [amounts, zero, Nat.cast_zero]
      exact outside (reaches _ _ (backward arc) positive inside)
  · refine (network specs).totalCost_le_of_potential potential isFlow ?_ ?_ otherFlow sameValue
    · intro arc room
      have positive : 0 < specs[arc].capacity - used arc := by
        have bound : (used arc : ℤ) < specs[arc].capacity := room
        omega
      exact feasible _ _ (forward arc) positive
    · intro arc inUse
      have positive : 0 < used arc := by
        have bound : (0 : ℤ) < used arc := inUse
        omega
      have reduced := feasible _ _ (backward arc) positive
      simp only [backwardPosition] at reduced
      change specs[arc].cost + potential specs[arc].start - potential specs[arc].stop ≤ 0
      omega

/-- The amount that all arcs out of a node can carry. -/
private def outCapacity (specs : List ArcSpec) (node : ℕ) : ℤ :=
  ∑ arc : Fin specs.length, if specs[arc].start = node then (specs[arc].capacity : ℤ) else 0

private theorem Sending.net_le (sending : Sending specs used graph) (node : ℕ) :
    (network specs).net (amounts specs used) node ≤ outCapacity specs node := by
  have stored : ∀ arc : Fin specs.length, specs[(arc : ℕ)]? = some specs[arc] := fun arc =>
    List.getElem?_eq_getElem arc.isLt
  have entering : 0 ≤ ∑ arc : Fin specs.length,
      if (network specs).head arc = node then amounts specs used arc else 0 := by
    apply Finset.sum_nonneg
    intro arc _
    split
    · exact Int.natCast_nonneg _
    · exact le_rfl
  have leaving : (∑ arc : Fin specs.length,
      if (network specs).tail arc = node then amounts specs used arc else 0) ≤
        outCapacity specs node := by
    apply Finset.sum_le_sum
    intro arc _
    change (if specs[arc].start = node then _ else _) ≤ _
    split
    · exact Int.ofNat_le.mpr (sending.within arc _ (stored arc))
    · exact le_rfl
  unfold Network.net
  omega

/-- **Successive shortest paths are optimal.** From a graph with nothing sent and
a feasible potential, the loop ends, for all sufficiently large fuel in one and
the same residual graph, and the amounts sent there form a maximum flow that is
cheapest among the maximum flows. -/
theorem saturate_optimal (specs : List ArcSpec) (loopless : Loopless specs)
    (different : source ≠ sink) {potential : ℕ → ℤ}
    (feasible : ∀ spec ∈ specs, 0 < spec.capacity →
      0 ≤ spec.cost + potential spec.start - potential spec.stop)
    (built : Built specs graph) :
    ∃ used final, (∀ᶠ fuel in Filter.atTop, saturate source sink fuel graph = some final) ∧
      Residual specs used final ∧ Optimal specs source sink used := by
  let nodes : Finset ℕ := (specs.map ArcSpec.start ++ specs.map ArcSpec.stop).toFinset
  have closed : ∀ used graph, Residual specs used graph →
      ∀ position arc, graph.arc? position = some arc → arc.toNode ∈ nodes := by
    intro used graph residual position arc stored
    rw [List.mem_toFinset, List.mem_append]
    obtain ⟨index, spec, present, rfl | rfl⟩ := residual.complete position arc stored
    · obtain rfl := Option.some.inj ((residual.forward index spec present).symm.trans stored)
      exact Or.inr (List.mem_map_of_mem (List.mem_of_getElem? present))
    · obtain rfl := Option.some.inj ((residual.backward index spec present).symm.trans stored)
      exact Or.inl (List.mem_map_of_mem (List.mem_of_getElem? present))
  have ends : ∀ (room : ℕ) (used : ℕ → ℕ) (graph : Graph) (potential : ℕ → ℤ),
      room = (outCapacity specs source -
        (network specs).net (amounts specs used) source).toNat →
      Sending specs used graph → Feasible graph potential →
      (∀ vertex, vertex ≠ source → vertex ≠ sink →
        (network specs).net (amounts specs used) vertex = 0) →
      ∃ used final, (∀ᶠ fuel in Filter.atTop, saturate source sink fuel graph = some final) ∧
        Residual specs used final ∧ Optimal specs source sink used := by
    intro room
    induction room using Nat.strong_induction_on with
    | _ room ih =>
        rintro used graph potential rfl sending feasible conserved
        obtain ⟨search, searched, finished⟩ :=
          settle_start source nodes feasible (closed used graph sending.residual)
        obtain ⟨enough, searched⟩ := Filter.eventually_atTop.mp searched
        by_cases unreached : search.previous sink = none
        · refine ⟨used, graph, Filter.eventually_atTop.mpr ⟨enough + 1, fun fuel large => ?_⟩,
            sending.residual, sending.optimal different conserved feasible finished unreached⟩
          obtain ⟨less, rfl⟩ : ∃ less, fuel = less + 1 := ⟨fuel - 1, by omega⟩
          rw [saturate, searched less (by omega), Option.bind_some, if_pos unreached]
        · obtain ⟨position, pointer⟩ := Option.ne_none_iff_exists'.mp unreached
          obtain ⟨next, nextFeasible, isOpen⟩ := finished.exists_potential feasible nodes
            (closed used graph sending.residual)
          obtain ⟨depth, rooted⟩ : ∃ depth, RootedAt search.previous source depth sink := by
            cases known : search.distance sink with
            | some label => exact finished.valid.rooted sink label known
            | none => exact absurd (finished.valid.unlabelled sink known) unreached
          obtain ⟨sent, augmented, reaches, augmentedSending, augmentedFeasible, moved⟩ :=
            augment_spec loopless rooted sending nextFeasible (isOpen depth)
          have gained : (network specs).net (amounts specs sent) source =
              (network specs).net (amounts specs used) source + 1 := by
            rw [moved source, if_pos rfl, if_neg different.symm, sub_zero]
          have below := augmentedSending.net_le source
          obtain ⟨best, final, saturated, residual, optimal⟩ := ih _ (by omega) sent augmented next
            rfl augmentedSending augmentedFeasible fun vertex notSource notSink => by
              rw [moved vertex, conserved vertex notSource notSink, if_neg notSource.symm,
                if_neg notSink.symm, sub_zero, add_zero]
          obtain ⟨rounds, saturated⟩ := Filter.eventually_atTop.mp saturated
          refine ⟨best, final, Filter.eventually_atTop.mpr
            ⟨max (enough + 1) (max (depth + 2) (rounds + 1)), fun fuel large => ?_⟩,
            residual, optimal⟩
          obtain ⟨less, rfl⟩ : ∃ less, fuel = less + 1 := ⟨fuel - 1, by omega⟩
          rw [saturate, searched less (by omega), Option.bind_some, if_neg unreached,
            reaches less (by omega), Option.bind_some, saturated less (by omega)]
  apply ends _ (fun _ => 0) graph potential rfl ⟨built.residual, fun _ _ _ => Nat.zero_le _⟩
  · intro position arc stored positive
    obtain ⟨index, spec, present, rfl | rfl⟩ := built.residual.complete position arc stored
    · obtain rfl := Option.some.inj ((built.residual.forward index spec present).symm.trans stored)
      exact feasible spec (List.mem_of_getElem? present) (by simpa using positive)
    · obtain rfl := Option.some.inj ((built.residual.backward index spec present).symm.trans stored)
      exact absurd positive (lt_irrefl 0)
  · intro vertex _ _
    simp [Network.net, amounts]

end Optimality

end PlantManager.Flow

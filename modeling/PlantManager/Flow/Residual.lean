import Mathlib

/-! # Residual graphs as adjacency lists

A residual graph keeps, for every node, the list of arcs out of it. Every arc of
the network is stored twice: a forward arc with the capacity still free, and a
backward arc with the amount already sent, each naming the slot of the other in
the opposite node's list. Pushing a unit along either moves one unit of capacity
to its partner.

`Flow.Residual` says that a graph is the residual graph of a list of
arc specifications for given amounts. It holds of a freshly built graph with
nothing sent (`Flow.Built.addArcs`) and is kept by every push
(`Flow.Residual.push_forward`, `Flow.Residual.push_backward`).
-/

namespace PlantManager.Flow

/-- One directed arc of a residual graph. -/
structure Arc where
  toNode : ℕ
  reverse : ℕ
  capacity : ℕ
  cost : ℤ
deriving DecidableEq, Repr

/-- The arcs out of every node. -/
abbrev Graph := ℕ → List Arc

/-- A node and a slot in its adjacency list. -/
abbrev Position := ℕ × ℕ

/-- The endpoints, capacity and cost of an arc to be added. -/
structure ArcSpec where
  start : ℕ
  stop : ℕ
  capacity : ℕ
  cost : ℤ
deriving DecidableEq, Repr

/-- The graph without arcs. -/
def emptyGraph : Graph := fun _ => []

/-- Append an arc and its reverse; the slot of the forward arc is returned. -/
def addArc (graph : Graph) (spec : ArcSpec) : Graph × ℕ :=
  let forwardIndex := (graph spec.start).length
  let withForward := Function.update graph spec.start
    (graph spec.start ++ [⟨spec.stop, (graph spec.stop).length, spec.capacity, spec.cost⟩])
  (Function.update withForward spec.stop
    (withForward spec.stop ++ [⟨spec.start, forwardIndex, 0, -spec.cost⟩]), forwardIndex)

/-- Append arcs in order, returning the slots of the forward arcs. -/
def addArcs (graph : Graph) : List ArcSpec → Graph × List ℕ
  | [] => (graph, [])
  | spec :: rest =>
      let added := addArc graph spec
      let final := addArcs added.1 rest
      (final.1, added.2 :: final.2)

namespace Graph

/-- The arc stored at a position. -/
def arc? (graph : Graph) (position : Position) : Option Arc :=
  (graph position.1)[position.2]?

/-- Change the capacity stored at a position. -/
def adjust (graph : Graph) (position : Position) (change : ℕ → ℕ) : Graph :=
  Function.update graph position.1
    ((graph position.1).modify position.2 fun arc => { arc with capacity := change arc.capacity })

/-- Move one unit of capacity from an arc to its reverse. -/
def push (graph : Graph) (position : Position) : Graph :=
  match graph.arc? position with
  | none => graph
  | some arc => (graph.adjust position (· - 1)).adjust (arc.toNode, arc.reverse) (· + 1)

theorem arc?_adjust (graph : Graph) (position other : Position) (change : ℕ → ℕ) :
    (graph.adjust position change).arc? other =
      if other = position then
        (graph.arc? position).map fun arc => { arc with capacity := change arc.capacity }
      else graph.arc? other := by
  obtain ⟨node, slot⟩ := position
  obtain ⟨otherNode, otherSlot⟩ := other
  unfold arc? adjust
  by_cases sameNode : otherNode = node
  · subst sameNode
    by_cases sameSlot : slot = otherSlot
    · subst sameSlot; simp
    · simp [sameSlot, Ne.symm sameSlot]
  · simp only [Function.update_of_ne sameNode, Prod.mk.injEq, sameNode, false_and, ↓reduceIte]

theorem arc?_push (graph : Graph) (position other : Position) (arc : Arc)
    (stored : graph.arc? position = some arc) (apart : position ≠ (arc.toNode, arc.reverse)) :
    (graph.push position).arc? other =
      if other = position then some { arc with capacity := arc.capacity - 1 }
      else if other = (arc.toNode, arc.reverse) then
        (graph.arc? other).map fun back => { back with capacity := back.capacity + 1 }
      else graph.arc? other := by
  unfold push
  simp only [arc?_adjust, stored, Option.map_some]
  by_cases atBack : other = (arc.toNode, arc.reverse)
  · subst atBack
    simp only [↓reduceIte, Ne.symm apart]
  · by_cases atFront : other = position
    · rw [if_neg atBack, if_pos atFront, if_pos atFront]
    · rw [if_neg atBack, if_neg atFront, if_neg atFront, if_neg atBack]

end Graph

/-- Whether an arc starts or stops at a node. -/
def ArcSpec.Touches (spec : ArcSpec) (node : ℕ) : Prop := spec.start = node ∨ spec.stop = node

instance (spec : ArcSpec) (node : ℕ) : Decidable (spec.Touches node) :=
  inferInstanceAs (Decidable (_ ∨ _))

/-- The number of arcs at a node. -/
def degree (specs : List ArcSpec) (node : ℕ) : ℕ := specs.countP fun spec => spec.Touches node

/-- The slot that the arc with this index occupies at one of its ends. -/
def slot (specs : List ArcSpec) (index node : ℕ) : ℕ := degree (specs.take index) node

/-- The position of the forward arc with this index. -/
def forwardPosition (specs : List ArcSpec) (index : ℕ) (spec : ArcSpec) : Position :=
  (spec.start, slot specs index spec.start)

/-- The position of the backward arc with this index. -/
def backwardPosition (specs : List ArcSpec) (index : ℕ) (spec : ArcSpec) : Position :=
  (spec.stop, slot specs index spec.stop)

variable {first second : ℕ} {right : ArcSpec}

variable {spec left : ArcSpec}

theorem slot_lt_slot {specs : List ArcSpec} {node : ℕ} (earlier : first < second)
    (stored : specs[first]? = some spec) (touches : spec.Touches node) :
    slot specs first node < slot specs second node := by
  obtain ⟨bound, rfl⟩ := List.getElem?_eq_some_iff.mp stored
  have grown : slot specs first node + 1 = degree (specs.take (first + 1)) node := by
    unfold slot degree
    rw [List.take_succ_eq_append_getElem bound, List.countP_append]
    simp [touches]
  have monotone : degree (specs.take (first + 1)) node ≤ slot specs second node := by
    exact (List.take_sublist_take_left (by omega)).countP_le
  omega

/-- Two arcs at one node occupy different slots. -/
theorem slot_injective {specs : List ArcSpec} {node : ℕ} (storedLeft : specs[first]? = some left)
    (storedRight : specs[second]? = some right) (touchesLeft : left.Touches node)
    (touchesRight : right.Touches node) (same : slot specs first node = slot specs second node) :
    first = second := by
  rcases Nat.lt_trichotomy first second with earlier | equal | later
  · exact absurd same (slot_lt_slot earlier storedLeft touchesLeft).ne
  · exact equal
  · exact absurd same (slot_lt_slot later storedRight touchesRight).ne'

/-- A graph stores exactly the residual arcs of the specifications for the given
amounts. -/
structure Residual (specs : List ArcSpec) (used : ℕ → ℕ) (graph : Graph) : Prop where
  forward : ∀ index spec, specs[index]? = some spec →
    graph.arc? (forwardPosition specs index spec) =
      some ⟨spec.stop, slot specs index spec.stop, spec.capacity - used index, spec.cost⟩
  backward : ∀ index spec, specs[index]? = some spec →
    graph.arc? (backwardPosition specs index spec) =
      some ⟨spec.start, slot specs index spec.start, used index, -spec.cost⟩
  complete : ∀ position arc, graph.arc? position = some arc →
    ∃ index spec, specs[index]? = some spec ∧
      (position = forwardPosition specs index spec ∨ position = backwardPosition specs index spec)

/-- Specifications without self-loops. -/
def Loopless (specs : List ArcSpec) : Prop := ∀ spec ∈ specs, spec.start ≠ spec.stop

theorem forward_ne_backward {specs : List ArcSpec} (loopless : Loopless specs)
    (storedLeft : specs[first]? = some left) (storedRight : specs[second]? = some right) :
    forwardPosition specs first left ≠ backwardPosition specs second right := by
  intro same
  have node : left.start = right.stop := congrArg Prod.fst same
  have slots : slot specs first left.start = slot specs second right.stop :=
    congrArg Prod.snd same
  rw [← node] at slots
  have index := slot_injective storedLeft storedRight (Or.inl rfl) (Or.inr node.symm) slots
  subst index
  obtain rfl : left = right := Option.some.inj (storedLeft.symm.trans storedRight)
  exact loopless left (List.mem_of_getElem? storedLeft) node

theorem forwardPosition_injective {specs : List ArcSpec} (storedLeft : specs[first]? = some left)
    (storedRight : specs[second]? = some right)
    (same : forwardPosition specs first left = forwardPosition specs second right) :
    first = second := by
  have node : left.start = right.start := congrArg Prod.fst same
  have slots : slot specs first left.start = slot specs second right.start :=
    congrArg Prod.snd same
  rw [← node] at slots
  exact slot_injective storedLeft storedRight (Or.inl rfl) (Or.inl node.symm) slots

theorem backwardPosition_injective {specs : List ArcSpec} (storedLeft : specs[first]? = some left)
    (storedRight : specs[second]? = some right)
    (same : backwardPosition specs first left = backwardPosition specs second right) :
    first = second := by
  have node : left.stop = right.stop := congrArg Prod.fst same
  have slots : slot specs first left.stop = slot specs second right.stop :=
    congrArg Prod.snd same
  rw [← node] at slots
  exact slot_injective storedLeft storedRight (Or.inr rfl) (Or.inr node.symm) slots

namespace Residual

variable {specs : List ArcSpec} {used : ℕ → ℕ} {graph : Graph}

/-- Pushing along a forward arc sends one more unit along it. -/
theorem push_forward (residual : Residual specs used graph) (loopless : Loopless specs)
    {index : ℕ} {spec : ArcSpec} (stored : specs[index]? = some spec) :
    Residual specs (Function.update used index (used index + 1))
      (graph.push (forwardPosition specs index spec)) := by
  have pushed := fun other => graph.arc?_push _ other _ (residual.forward index spec stored)
    (forward_ne_backward loopless stored stored)
  constructor
  · intro other otherSpec storedOther
    rw [pushed]
    by_cases same : other = index
    · subst same
      obtain rfl : otherSpec = spec := Option.some.inj (storedOther.symm.trans stored)
      simp only [↓reduceIte, Function.update_self]
      congr 2
    · have apart : forwardPosition specs other otherSpec ≠ forwardPosition specs index spec :=
        fun equal => same (forwardPosition_injective storedOther stored equal)
      have notBack : forwardPosition specs other otherSpec ≠
          (spec.stop, slot specs index spec.stop) :=
        forward_ne_backward loopless storedOther stored
      simp only [apart, notBack, ↓reduceIte, Function.update_of_ne same,
        residual.forward other otherSpec storedOther]
  · intro other otherSpec storedOther
    rw [pushed]
    have notFront : backwardPosition specs other otherSpec ≠ forwardPosition specs index spec :=
      (forward_ne_backward loopless stored storedOther).symm
    by_cases same : other = index
    · subst same
      obtain rfl : otherSpec = spec := Option.some.inj (storedOther.symm.trans stored)
      have back : backwardPosition specs other otherSpec =
          (otherSpec.stop, slot specs other otherSpec.stop) := rfl
      rw [if_neg notFront, if_pos back, residual.backward other otherSpec storedOther,
        Function.update_self]
      rfl
    · have apart : backwardPosition specs other otherSpec ≠
          (spec.stop, slot specs index spec.stop) :=
        fun equal => same (backwardPosition_injective storedOther stored equal)
      simp only [apart, notFront, ↓reduceIte, Function.update_of_ne same,
        residual.backward other otherSpec storedOther]
  · intro position arc present
    rw [pushed] at present
    by_cases atFront : position = forwardPosition specs index spec
    · exact ⟨index, spec, stored, Or.inl atFront⟩
    by_cases atBack : position = (spec.stop, slot specs index spec.stop)
    · exact ⟨index, spec, stored, Or.inr atBack⟩
    simp only [atFront, atBack, ↓reduceIte] at present
    exact residual.complete position arc present

/-- Pushing along a backward arc takes one unit back from its forward arc. -/
theorem push_backward (residual : Residual specs used graph) (loopless : Loopless specs)
    (within : ∀ index spec, specs[index]? = some spec → used index ≤ spec.capacity)
    {index : ℕ} {spec : ArcSpec} (stored : specs[index]? = some spec) (sent : 0 < used index) :
    Residual specs (Function.update used index (used index - 1))
      (graph.push (backwardPosition specs index spec)) := by
  have pushed := fun other => graph.arc?_push _ other _ (residual.backward index spec stored)
    (forward_ne_backward loopless stored stored).symm
  have fits := within index spec stored
  constructor
  · intro other otherSpec storedOther
    rw [pushed]
    have notBack : forwardPosition specs other otherSpec ≠ backwardPosition specs index spec :=
      forward_ne_backward loopless storedOther stored
    by_cases same : other = index
    · subst same
      obtain rfl : otherSpec = spec := Option.some.inj (storedOther.symm.trans stored)
      have front : forwardPosition specs other otherSpec =
          (otherSpec.start, slot specs other otherSpec.start) := rfl
      rw [if_neg notBack, if_pos front, residual.forward other otherSpec storedOther,
        Function.update_self]
      simp only [Option.map_some, Option.some.injEq, Arc.mk.injEq, and_true, true_and]
      omega
    · have apart : forwardPosition specs other otherSpec ≠
          (spec.start, slot specs index spec.start) :=
        fun equal => same (forwardPosition_injective storedOther stored equal)
      simp only [apart, notBack, ↓reduceIte, Function.update_of_ne same,
        residual.forward other otherSpec storedOther]
  · intro other otherSpec storedOther
    rw [pushed]
    by_cases same : other = index
    · subst same
      obtain rfl : otherSpec = spec := Option.some.inj (storedOther.symm.trans stored)
      simp only [↓reduceIte, Function.update_self]
    · have apart : backwardPosition specs other otherSpec ≠ backwardPosition specs index spec :=
        fun equal => same (backwardPosition_injective storedOther stored equal)
      have notFront : backwardPosition specs other otherSpec ≠
          (spec.start, slot specs index spec.start) :=
        (forward_ne_backward loopless stored storedOther).symm
      simp only [apart, notFront, ↓reduceIte, Function.update_of_ne same,
        residual.backward other otherSpec storedOther]
  · intro position arc present
    rw [pushed] at present
    by_cases atBack : position = backwardPosition specs index spec
    · exact ⟨index, spec, stored, Or.inr atBack⟩
    by_cases atFront : position = (spec.start, slot specs index spec.start)
    · exact ⟨index, spec, stored, Or.inl atFront⟩
    simp only [atFront, atBack, ↓reduceIte] at present
    exact residual.complete position arc present

end Residual

/-- A graph built from the specifications with nothing sent yet. -/
structure Built (specs : List ArcSpec) (graph : Graph) : Prop where
  residual : Residual specs (fun _ => 0) graph
  length : ∀ node, (graph node).length = degree specs node

theorem slot_append_of_lt {specs more : List ArcSpec} {index : ℕ} (bound : index ≤ specs.length)
    (node : ℕ) : slot (specs ++ more) index node = slot specs index node := by
  unfold slot
  rw [List.take_append_of_le_length bound]

theorem slot_length (specs : List ArcSpec) (more : List ArcSpec) (node : ℕ) :
    slot (specs ++ more) specs.length node = degree specs node := by
  unfold slot
  rw [List.take_left]

theorem built_empty : Built [] emptyGraph := by
  constructor
  · constructor
    · intro index spec stored; simp at stored
    · intro index spec stored; simp at stored
    · intro position arc present; simp [Graph.arc?, emptyGraph] at present
  · intro node; rfl

private theorem arc?_addArc {specs : List ArcSpec} {graph : Graph} (built : Built specs graph)
    (spec : ArcSpec) (apart : spec.start ≠ spec.stop) (position : Position) :
    (addArc graph spec).1.arc? position =
      if position = (spec.start, degree specs spec.start) then
        some ⟨spec.stop, degree specs spec.stop, spec.capacity, spec.cost⟩
      else if position = (spec.stop, degree specs spec.stop) then
        some ⟨spec.start, degree specs spec.start, 0, -spec.cost⟩
      else graph.arc? position := by
  obtain ⟨node, index⟩ := position
  unfold Graph.arc? addArc
  simp only [built.length, Prod.mk.injEq]
  by_cases atStop : node = spec.stop
  · have notStart : spec.stop ≠ spec.start := Ne.symm apart
    subst atStop
    simp only [Function.update_self, Function.update_of_ne notStart, notStart, false_and,
      ↓reduceIte, true_and, List.getElem?_append, built.length]
    by_cases inside : index < degree specs spec.stop
    · simp only [inside, ↓reduceIte, inside.ne]
    · by_cases last : index = degree specs spec.stop
      · simp [last]
      · have beyond : degree specs spec.stop < index := by omega
        simp only [inside, last, ↓reduceIte]
        rw [List.getElem?_eq_none (by simp; omega),
          List.getElem?_eq_none (by rw [built.length]; omega)]
  · simp only [Function.update_of_ne atStop, atStop, false_and, ↓reduceIte]
    by_cases atStart : node = spec.start
    · subst atStart
      simp only [Function.update_self, true_and, List.getElem?_append, built.length]
      by_cases inside : index < degree specs spec.start
      · simp only [inside, ↓reduceIte, inside.ne]
      · by_cases last : index = degree specs spec.start
        · simp [last]
        · simp only [inside, last, ↓reduceIte]
          rw [List.getElem?_eq_none (by simp; omega),
            List.getElem?_eq_none (by rw [built.length]; omega)]
    · simp only [Function.update_of_ne atStart, atStart, false_and, ↓reduceIte]

private theorem getElem?_snoc {specs : List ArcSpec} {other : ArcSpec} {index : ℕ}
    (stored : (specs ++ [spec])[index]? = some other) :
    (index < specs.length ∧ specs[index]? = some other) ∨
      (index = specs.length ∧ other = spec) := by
  rw [List.getElem?_append] at stored
  split at stored
  · exact Or.inl ⟨by assumption, stored⟩
  · rename_i beyond
    obtain ⟨bound, same⟩ := List.getElem?_eq_some_iff.mp stored
    have length : [spec].length = 1 := rfl
    have zero : index - specs.length = 0 := by omega
    refine Or.inr ⟨by omega, ?_⟩
    simpa [zero] using same.symm

private theorem slot_ne_degree {specs : List ArcSpec} {index node : ℕ}
    (stored : specs[index]? = some spec) (touches : spec.Touches node) :
    slot specs index node ≠ degree specs node := by
  obtain ⟨bound, -⟩ := List.getElem?_eq_some_iff.mp stored
  have below : slot specs index node < slot specs specs.length node :=
    slot_lt_slot bound stored touches
  have full : slot specs specs.length node = degree specs node := by
    unfold slot; rw [List.take_length]
  omega

theorem Built.addArc {specs : List ArcSpec} {graph : Graph} (built : Built specs graph)
    (spec : ArcSpec) (apart : spec.start ≠ spec.stop) :
    Built (specs ++ [spec]) (addArc graph spec).1 := by
  have lookup := arc?_addArc built spec apart
  constructor
  · constructor
    · intro index other stored
      rw [lookup]
      unfold forwardPosition
      rcases getElem?_snoc stored with ⟨bound, earlier⟩ | ⟨rfl, rfl⟩
      · have notStart : (other.start, slot specs index other.start) ≠
            (spec.start, degree specs spec.start) := by
          intro same
          have node : other.start = spec.start := congrArg Prod.fst same
          exact slot_ne_degree earlier (Or.inl node) (node ▸ congrArg Prod.snd same)
        have notStop : (other.start, slot specs index other.start) ≠
            (spec.stop, degree specs spec.stop) := by
          intro same
          have node : other.start = spec.stop := congrArg Prod.fst same
          exact slot_ne_degree earlier (Or.inl node) (node ▸ congrArg Prod.snd same)
        simp only [slot_append_of_lt bound.le, notStart, notStop, ↓reduceIte]
        exact built.residual.forward index other earlier
      · simp only [slot_length, ↓reduceIte, Nat.sub_zero]
    · intro index other stored
      rw [lookup]
      unfold backwardPosition
      rcases getElem?_snoc stored with ⟨bound, earlier⟩ | ⟨rfl, rfl⟩
      · have notStart : (other.stop, slot specs index other.stop) ≠
            (spec.start, degree specs spec.start) := by
          intro same
          have node : other.stop = spec.start := congrArg Prod.fst same
          exact slot_ne_degree earlier (Or.inr node) (node ▸ congrArg Prod.snd same)
        have notStop : (other.stop, slot specs index other.stop) ≠
            (spec.stop, degree specs spec.stop) := by
          intro same
          have node : other.stop = spec.stop := congrArg Prod.fst same
          exact slot_ne_degree earlier (Or.inr node) (node ▸ congrArg Prod.snd same)
        simp only [slot_append_of_lt bound.le, notStart, notStop, ↓reduceIte]
        exact built.residual.backward index other earlier
      · have notStart : (other.stop, degree specs other.stop) ≠
            (other.start, degree specs other.start) :=
          fun same => apart (congrArg Prod.fst same).symm
        simp only [slot_length, notStart, ↓reduceIte]
    · intro position arc present
      rw [lookup] at present
      have last : (specs ++ [spec])[specs.length]? = some spec := by simp
      by_cases atStart : position = (spec.start, degree specs spec.start)
      · exact ⟨specs.length, spec, last, Or.inl (by rw [atStart, forwardPosition, slot_length])⟩
      by_cases atStop : position = (spec.stop, degree specs spec.stop)
      · exact ⟨specs.length, spec, last, Or.inr (by rw [atStop, backwardPosition, slot_length])⟩
      simp only [atStart, atStop, ↓reduceIte] at present
      obtain ⟨index, other, stored, place⟩ := built.residual.complete position arc present
      obtain ⟨bound, -⟩ := List.getElem?_eq_some_iff.mp stored
      refine ⟨index, other, by rw [List.getElem?_append_left bound, stored], ?_⟩
      simpa only [forwardPosition, backwardPosition, slot_append_of_lt bound.le] using place
  · intro node
    unfold Flow.addArc degree ArcSpec.Touches
    simp only [List.countP_append, List.countP_cons, List.countP_nil, Nat.zero_add]
    have old := built.length node
    unfold degree ArcSpec.Touches at old
    by_cases atStop : node = spec.stop
    · subst atStop
      simp only [Function.update_self, List.length_append, List.length_singleton, or_true,
        decide_true, ↓reduceIte, Function.update_of_ne (Ne.symm apart), old]
    · by_cases atStart : node = spec.start
      · subst atStart
        simp only [Function.update_of_ne atStop, Function.update_self, List.length_append,
          List.length_singleton, true_or, decide_true, ↓reduceIte, old]
      · simp only [Function.update_of_ne atStop, Function.update_of_ne atStart, Ne.symm atStop,
          Ne.symm atStart, or_self, decide_false, Bool.false_eq_true, ↓reduceIte, Nat.add_zero, old]

/-- Adding arcs in order builds the graph of the extended specifications, and the
returned slots are those of the forward arcs. -/
theorem Built.addArcs {specs : List ArcSpec} {graph : Graph} (built : Built specs graph)
    (more : List ArcSpec) (loopless : Loopless more) :
    Built (specs ++ more) (addArcs graph more).1 ∧
      (addArcs graph more).2.length = more.length ∧
      ∀ index spec, more[index]? = some spec → (addArcs graph more).2[index]? =
        some (slot (specs ++ more) (specs.length + index) spec.start) := by
  induction more generalizing specs graph with
  | nil => exact ⟨by simpa [Flow.addArcs] using built, rfl, by simp⟩
  | cons spec rest ih =>
      have apart := loopless spec List.mem_cons_self
      obtain ⟨final, length, slots⟩ := ih (built.addArc spec apart)
        fun other member => loopless other (List.mem_cons_of_mem _ member)
      rw [List.append_assoc, List.singleton_append] at final
      refine ⟨final, by simp [Flow.addArcs, length], ?_⟩
      intro index other stored
      cases index with
      | zero =>
          obtain rfl : spec = other := by simpa using stored
          simp only [Flow.addArcs, List.getElem?_cons_zero, Nat.add_zero, slot_length]
          simp only [Flow.addArc, built.length]
      | succ index =>
          have found := slots index other (by simpa using stored)
          simp only [List.append_assoc, List.singleton_append, List.length_append,
            List.length_singleton] at found
          simp only [Flow.addArcs, List.getElem?_cons_succ, found]
          congr 2
          omega

end PlantManager.Flow

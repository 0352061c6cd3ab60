import PlantManager.Flow.Residual

/-! # Queue-based shortest paths

A search labels nodes with tentative distances from a source. A queue holds the
labelled nodes whose outgoing arcs have to be relaxed; relaxing an arc with free
capacity may lower the label of its target, which is then queued again.

Costs may be negative. A feasible potential, one that makes every usable arc's
reduced cost nonnegative, bounds all labels from below, so the queue runs empty
(`Flow.settle_start`), and it keeps the predecessor pointers free
of cycles, so following them leads back to the source
(`Flow.Valid.rooted`).
-/

namespace PlantManager.Flow

/-- Tentative distances, predecessor positions and the queue of a search. -/
structure Search where
  distance : ℕ → Option ℤ
  previous : ℕ → Option Position
  pending : List ℕ
  queued : Finset ℕ

/-- Whether a candidate distance replaces a label. -/
def improves (candidate : ℤ) : Option ℤ → Prop
  | none => True
  | some current => candidate < current

instance (candidate : ℤ) : (label : Option ℤ) → Decidable (improves candidate label)
  | none => inferInstanceAs (Decidable True)
  | some current => inferInstanceAs (Decidable (candidate < current))

/-- Relax one arc out of a node with the given distance. -/
def relaxArc (node : ℕ) (nodeDistance : ℤ) (search : Search) (arc : Arc) (arcIndex : ℕ) : Search :=
  let candidate := nodeDistance + arc.cost
  if arc.capacity ≠ 0 ∧ improves candidate (search.distance arc.toNode) then
    let next := { search with
      distance := Function.update search.distance arc.toNode (some candidate)
      previous := Function.update search.previous arc.toNode (some (node, arcIndex)) }
    if arc.toNode ∈ search.queued then next
    else { next with
      pending := search.pending ++ [arc.toNode]
      queued := insert arc.toNode search.queued }
  else search

/-- Relax the arcs of a list, which occupy consecutive slots. -/
def relaxArcs (node : ℕ) (nodeDistance : ℤ) : List Arc → ℕ → Search → Search
  | [], _, search => search
  | arc :: rest, arcIndex, search =>
      relaxArcs node nodeDistance rest (arcIndex + 1)
        (relaxArc node nodeDistance search arc arcIndex)

/-- Take nodes from the queue and relax their arcs until the queue is empty. -/
def settle (graph : Graph) : ℕ → Search → Option Search
  | 0, _ => none
  | fuel + 1, search =>
      match search.pending with
      | [] => some search
      | node :: rest =>
          let popped := { search with pending := rest, queued := search.queued.erase node }
          match popped.distance node with
          | none => settle graph fuel popped
          | some nodeDistance =>
              settle graph fuel (relaxArcs node nodeDistance (graph node) 0 popped)

/-- More fuel does not change what the search finds. -/
theorem settle_mono {graph : Graph} {fuel more : ℕ} (enough : fuel ≤ more) {search final : Search}
    (finished : settle graph fuel search = some final) : settle graph more search = some final := by
  induction fuel generalizing search more with
  | zero => simp [settle] at finished
  | succ fuel ih =>
      obtain ⟨extra, rfl⟩ : ∃ extra, more = extra + 1 := ⟨more - 1, by omega⟩
      have less : fuel ≤ extra := by omega
      rw [settle] at finished ⊢
      cases waiting : search.pending with
      | nil => rwa [waiting] at finished
      | cons node rest =>
          rw [waiting] at finished
          dsimp only at finished ⊢
          cases label : search.distance node with
          | none | some nodeDistance =>
              rw [label] at finished
              exact ih less finished

/-- The search that knows only the source. -/
def startSearch (source : ℕ) : Search where
  distance := Function.update (fun _ => none) source (some 0)
  previous := fun _ => none
  pending := [source]
  queued := {source}

/-- Every arc with free capacity has a nonnegative reduced cost. -/
def Feasible (graph : Graph) (potential : ℕ → ℤ) : Prop :=
  ∀ position arc, graph.arc? position = some arc → 0 < arc.capacity →
    0 ≤ arc.cost + potential position.1 - potential arc.toNode

/-- Following this many predecessor pointers leads to the source. -/
inductive RootedAt (previous : ℕ → Option Position) (source : ℕ) : ℕ → ℕ → Prop where
  | root : RootedAt previous source 0 source
  | step {node prior index depth : ℕ} : node ≠ source → previous node = some (prior, index) →
      RootedAt previous source depth prior → RootedAt previous source (depth + 1) node

variable {node : ℕ}

/-- The depth of a node is determined by the pointers. -/
theorem RootedAt.unique {previous : ℕ → Option Position} {source first second : ℕ}
    (left : RootedAt previous source first node) (right : RootedAt previous source second node) :
    first = second := by
  induction left generalizing second with
  | root =>
      cases right with
      | root => rfl
      | step different _ _ => exact absurd rfl different
  | step different pointer _ ih =>
      cases right with
      | root => exact absurd rfl different
      | step _ otherPointer below =>
          obtain ⟨rfl, -⟩ := Prod.mk.inj (Option.some.inj (pointer.symm.trans otherPointer))
          rw [ih below]

/-- What holds of a search at every moment. -/
structure Valid (graph : Graph) (source : ℕ) (potential : ℕ → ℤ) (search : Search) : Prop where
  source_zero : search.distance source = some 0
  above : ∀ node label, search.distance node = some label →
    potential node - potential source ≤ label
  traced : ∀ node label, node ≠ source → search.distance node = some label →
    ∃ prior index arc before, search.previous node = some (prior, index) ∧
      graph.arc? (prior, index) = some arc ∧ arc.toNode = node ∧ 0 < arc.capacity ∧
      search.distance prior = some before ∧ before + arc.cost ≤ label
  rooted : ∀ node label, search.distance node = some label →
    ∃ depth, RootedAt search.previous source depth node
  source_root : search.previous source = none
  unlabelled : ∀ node, search.distance node = none → search.previous node = none
  queued_iff : ∀ node, node ∈ search.queued ↔ node ∈ search.pending
  queue_nodup : search.pending.Nodup

/-- No arc out of the node can lower a label. -/
def SettledFrom (arcs : ℕ → Arc → Prop) (search : Search) (label : ℤ) : Prop :=
  ∀ index arc, arcs index arc → 0 < arc.capacity →
    ∃ reached, search.distance arc.toNode = some reached ∧ reached ≤ label + arc.cost

/-- A node is settled when no arc out of it can lower a label. -/
def Settled (graph : Graph) (search : Search) (node : ℕ) : Prop :=
  ∀ label, search.distance node = some label →
    SettledFrom (fun index arc => graph.arc? (node, index) = some arc) search label

/-- Relaxing an arc changes nothing, or lowers the label of its target. -/
theorem relaxArc_cases (node : ℕ) (nodeDistance : ℤ) (search : Search) (arc : Arc) (arcIndex : ℕ)
    (queuedIff : ∀ node, node ∈ search.queued ↔ node ∈ search.pending) :
    (relaxArc node nodeDistance search arc arcIndex = search ∧
      (0 < arc.capacity → ∃ label, search.distance arc.toNode = some label ∧
        label ≤ nodeDistance + arc.cost)) ∨
    (0 < arc.capacity ∧ improves (nodeDistance + arc.cost) (search.distance arc.toNode) ∧
      ∃ next, relaxArc node nodeDistance search arc arcIndex = next ∧
        next.distance = Function.update search.distance arc.toNode (some (nodeDistance + arc.cost)) ∧
        next.previous = Function.update search.previous arc.toNode (some (node, arcIndex)) ∧
        (∀ other, other ∈ next.pending ↔ other ∈ search.pending ∨ other = arc.toNode) ∧
        (∀ other, other ∈ next.queued ↔ other ∈ next.pending) ∧
        (search.pending.Nodup → next.pending.Nodup)) := by
  by_cases usable : arc.capacity ≠ 0 ∧
      improves (nodeDistance + arc.cost) (search.distance arc.toNode)
  · right
    refine ⟨Nat.pos_of_ne_zero usable.1, usable.2, _, rfl, ?_⟩
    unfold relaxArc
    simp only [usable, ne_eq, not_false_eq_true, and_self, ↓reduceIte]
    by_cases waiting : arc.toNode ∈ search.queued
    · simp only [waiting, ↓reduceIte, true_and]
      refine ⟨fun other => ?_, fun other => queuedIff other, fun nodup => nodup⟩
      constructor
      · exact Or.inl
      · rintro (member | rfl)
        · exact member
        · exact (queuedIff _).mp waiting
    · simp only [waiting, ↓reduceIte, List.mem_append, List.mem_singleton, Finset.mem_insert,
        true_and]
      refine ⟨fun other => trivial, fun other => ?_, fun nodup => ?_⟩
      · rw [queuedIff, or_comm]
      · rw [List.nodup_append]
        refine ⟨nodup, List.nodup_singleton _, ?_⟩
        intro other member last single same
        rw [same, List.mem_singleton.mp single] at member
        exact waiting ((queuedIff _).mpr member)
  · left
    refine ⟨by simp only [relaxArc, usable, ↓reduceIte], fun positive => ?_⟩
    cases known : search.distance arc.toNode with
    | none => exact absurd ⟨positive.ne', by simp only [known, improves]⟩ usable
    | some label =>
        refine ⟨label, rfl, not_lt.mp fun better => usable ⟨positive.ne', ?_⟩⟩
        simpa only [known, improves] using better

namespace Valid

variable {graph : Graph} {source : ℕ} {potential : ℕ → ℤ} {search : Search}

/-- Lowering the label of a node keeps the pointers of nodes with a smaller
distance above the potential. -/
private theorem rootedAt_update (valid : Valid graph source potential search)
    (feasible : Feasible graph potential) {changed node depth : ℕ} {label : ℤ} (position : Position)
    (rooted : RootedAt search.previous source depth node)
    (labelled : search.distance node = some label)
    (smaller : ∀ old, search.distance changed = some old →
      label - potential node < old - potential changed) :
    RootedAt (Function.update search.previous changed (some position)) source depth node := by
  induction rooted generalizing label with
  | root => exact .root
  | @step node prior index depth different pointer _ ih =>
      have apart : node ≠ changed := by
        rintro rfl
        exact lt_irrefl _ (smaller label labelled)
      obtain ⟨foundPrior, foundIndex, arc, before, found, stored, target, positive, priorLabel,
        shorter⟩ := valid.traced node label different labelled
      obtain ⟨rfl, rfl⟩ := Prod.mk.inj (Option.some.inj (found.symm.trans pointer))
      refine .step different (by rw [Function.update_of_ne apart, pointer]) (ih priorLabel ?_)
      intro old known
      have reduced := feasible _ arc stored positive
      rw [target] at reduced
      have bound := smaller old known
      simp only at reduced
      omega

/-- Relaxing an arc out of a node whose label is the given distance keeps the
search valid. -/
theorem relaxArc (valid : Valid graph source potential search)
    (feasible : Feasible graph potential) {node arcIndex : ℕ} {arc : Arc} {nodeDistance : ℤ}
    (stored : graph.arc? (node, arcIndex) = some arc)
    (nodeLabel : search.distance node = some nodeDistance) :
    Valid graph source potential (Flow.relaxArc node nodeDistance search arc arcIndex) := by
  rcases relaxArc_cases node nodeDistance search arc arcIndex valid.queued_iff with
    ⟨same, -⟩ | ⟨positive, better, next, isNext, distances, pointers, pending, queued, nodup⟩
  · rw [same]; exact valid
  rw [isNext]
  have reduced := feasible _ arc stored positive
  simp only at reduced
  have nodeAbove := valid.above node nodeDistance nodeLabel
  have notSource : arc.toNode ≠ source := by
    intro same
    rw [same, valid.source_zero] at better
    simp only [improves] at better
    rw [same] at reduced
    omega
  have unchanged : ∀ other, other ≠ arc.toNode → next.distance other = search.distance other := by
    intro other different
    rw [distances, Function.update_of_ne different]
  have lowered : next.distance arc.toNode = some (nodeDistance + arc.cost) := by
    rw [distances, Function.update_self]
  have nodeRooted : ∃ depth, RootedAt next.previous source depth node := by
    obtain ⟨depth, rooted⟩ := valid.rooted node nodeDistance nodeLabel
    refine ⟨depth, ?_⟩
    rw [pointers]
    apply valid.rootedAt_update feasible _ rooted nodeLabel
    intro old known
    rw [known] at better
    simp only [improves] at better
    omega
  have targetRooted : ∃ depth, RootedAt next.previous source depth arc.toNode := by
    obtain ⟨depth, rooted⟩ := nodeRooted
    exact ⟨depth + 1, .step notSource (by rw [pointers, Function.update_self]) rooted⟩
  have keepsRooted : ∀ depth other, RootedAt search.previous source depth other →
      ∃ depth, RootedAt next.previous source depth other := by
    intro depth other rooted
    induction rooted with
    | root => exact ⟨0, .root⟩
    | @step other prior index depth different pointer _ ih =>
        by_cases target : other = arc.toNode
        · rw [target]; exact targetRooted
        · obtain ⟨deeper, rooted⟩ := ih
          exact ⟨deeper + 1, .step different
            (by rw [pointers, Function.update_of_ne target, pointer]) rooted⟩
  constructor
  · rw [unchanged source notSource.symm, valid.source_zero]
  · intro other label known
    by_cases target : other = arc.toNode
    · subst target
      obtain rfl := Option.some.inj (lowered.symm.trans known)
      omega
    · exact valid.above other label (unchanged other target ▸ known)
  · intro other label different known
    by_cases target : other = arc.toNode
    · subst target
      obtain rfl := Option.some.inj (lowered.symm.trans known)
      have nodeNext : ∃ before, next.distance node = some before ∧ before ≤ nodeDistance := by
        by_cases loop : node = arc.toNode
        · rw [loop] at nodeLabel reduced
          rw [nodeLabel] at better
          simp only [improves] at better
          omega
        · exact ⟨nodeDistance, (unchanged node loop).trans nodeLabel, le_rfl⟩
      obtain ⟨before, nodeKnown, small⟩ := nodeNext
      exact ⟨node, arcIndex, arc, before, by rw [pointers, Function.update_self], stored, rfl,
        positive, nodeKnown, by omega⟩
    · obtain ⟨prior, index, between, before, pointer, kept, reaches, free, priorLabel, shorter⟩ :=
        valid.traced other label different (unchanged other target ▸ known)
      have priorNext : ∃ after, next.distance prior = some after ∧ after ≤ before := by
        by_cases priorTarget : prior = arc.toNode
        · subst priorTarget
          rw [priorLabel] at better
          exact ⟨_, lowered, le_of_lt better⟩
        · exact ⟨before, (unchanged prior priorTarget).trans priorLabel, le_rfl⟩
      obtain ⟨after, priorKnown, small⟩ := priorNext
      exact ⟨prior, index, between, after, by rw [pointers, Function.update_of_ne target, pointer],
        kept, reaches, free, priorKnown, by omega⟩
  · intro other label known
    by_cases target : other = arc.toNode
    · rw [target]; exact targetRooted
    · obtain ⟨depth, rooted⟩ := valid.rooted other label (unchanged other target ▸ known)
      exact keepsRooted depth other rooted
  · rw [pointers, Function.update_of_ne notSource.symm, valid.source_root]
  · intro other missing
    have target : other ≠ arc.toNode := by
      rintro rfl
      rw [lowered] at missing
      cases missing
    rw [pointers, Function.update_of_ne target]
    exact valid.unlabelled other (unchanged other target ▸ missing)
  · exact queued
  · exact nodup valid.queue_nodup

end Valid

/-- Labels only get lower, and the queue only grows. -/
structure Lowered (search next : Search) : Prop where
  label : ∀ node label, search.distance node = some label →
    ∃ lower, next.distance node = some lower ∧ lower ≤ label
  kept : ∀ node, node ∉ next.pending → next.distance node = search.distance node
  pending : ∀ node, node ∈ search.pending → node ∈ next.pending

theorem lowered_relaxArc (node : ℕ) (nodeDistance : ℤ) (search : Search) (arc : Arc) (arcIndex : ℕ)
    (queuedIff : ∀ node, node ∈ search.queued ↔ node ∈ search.pending) :
    Lowered search (relaxArc node nodeDistance search arc arcIndex) := by
  rcases relaxArc_cases node nodeDistance search arc arcIndex queuedIff with
    ⟨same, -⟩ | ⟨-, better, next, isNext, distances, -, pending, -, -⟩
  · rw [same]
    exact ⟨fun _ label known => ⟨label, known, le_rfl⟩, fun _ _ => rfl, fun _ member => member⟩
  · rw [isNext]
    refine ⟨fun other label known => ?_, fun other absent => ?_, fun other member => ?_⟩
    · by_cases target : other = arc.toNode
      · subst target
        rw [known] at better
        exact ⟨_, by rw [distances, Function.update_self], le_of_lt better⟩
      · exact ⟨label, by rw [distances, Function.update_of_ne target, known], le_rfl⟩
    · have different : other ≠ arc.toNode := fun same =>
        absent ((pending other).mpr (Or.inr same))
      rw [distances, Function.update_of_ne different]
    · exact (pending other).mpr (Or.inl member)

/-- A settled node stays settled while its own label is kept. -/
theorem Settled.lowered {graph : Graph} {search next : Search} (settled : Settled graph search node)
    (lowered : Lowered search next) (absent : node ∉ next.pending) : Settled graph next node := by
  intro label known index arc stored positive
  obtain ⟨reached, before, small⟩ :=
    settled label (lowered.kept node absent ▸ known) index arc stored positive
  obtain ⟨lower, after, smaller⟩ := lowered.label _ _ before
  exact ⟨lower, after, smaller.trans small⟩

/-- The search between two relaxations out of one node, with the arcs in the
first slots already relaxed. -/
structure Pass (graph : Graph) (source : ℕ) (potential : ℕ → ℤ) (node : ℕ) (nodeDistance : ℤ)
    (done : ℕ) (search : Search) : Prop where
  valid : Valid graph source potential search
  label : search.distance node = some nodeDistance
  others : ∀ other, other ∉ search.pending → other ≠ node → Settled graph search other
  scanned : SettledFrom (fun index arc => index < done ∧ graph.arc? (node, index) = some arc)
    search nodeDistance

theorem Pass.step {graph : Graph} {source : ℕ} {potential : ℕ → ℤ} {nodeDistance : ℤ} {done : ℕ}
    {search : Search} {arc : Arc} (feasible : Feasible graph potential)
    (pass : Pass graph source potential node nodeDistance done search)
    (stored : graph.arc? (node, done) = some arc) :
    Pass graph source potential node nodeDistance (done + 1)
      (relaxArc node nodeDistance search arc done) := by
  have lowered := lowered_relaxArc node nodeDistance search arc done pass.valid.queued_iff
  have cases := relaxArc_cases node nodeDistance search arc done pass.valid.queued_iff
  refine ⟨pass.valid.relaxArc feasible stored pass.label, ?_, ?_, ?_⟩
  · rcases cases with ⟨same, -⟩ | ⟨positive, better, next, isNext, distances, -, -, -, -⟩
    · rw [same]; exact pass.label
    · have notLoop : node ≠ arc.toNode := by
        intro loop
        have reduced := feasible _ arc stored positive
        rw [← loop, pass.label] at better
        simp only [improves] at better
        simp only [← loop] at reduced
        omega
      rw [isNext, distances, Function.update_of_ne notLoop, pass.label]
  · intro other absent different
    exact (pass.others other (fun member => absent (lowered.pending other member)) different).lowered
      lowered absent
  · rintro index found ⟨bound, kept⟩ positive
    rcases Nat.lt_succ_iff_lt_or_eq.mp bound with earlier | rfl
    · obtain ⟨reached, before, small⟩ := pass.scanned index found ⟨earlier, kept⟩ positive
      obtain ⟨lower, after, smaller⟩ := lowered.label _ _ before
      exact ⟨lower, after, smaller.trans small⟩
    · obtain rfl : arc = found := Option.some.inj (stored.symm.trans kept)
      rcases cases with ⟨same, bounded⟩ | ⟨-, -, next, isNext, distances, -, -, -, -⟩
      · rw [same]; exact bounded positive
      · exact ⟨_, by rw [isNext, distances, Function.update_self], le_rfl⟩

theorem Pass.run {graph : Graph} {source : ℕ} {potential : ℕ → ℤ} {nodeDistance : ℤ}
    (feasible : Feasible graph potential) (arcs : List Arc) (done : ℕ) (search : Search)
    (pass : Pass graph source potential node nodeDistance done search)
    (stored : ∀ offset arc, arcs[offset]? = some arc →
      graph.arc? (node, done + offset) = some arc) :
    Pass graph source potential node nodeDistance (done + arcs.length)
      (relaxArcs node nodeDistance arcs done search) := by
  induction arcs generalizing done search with
  | nil => exact pass
  | cons arc rest ih =>
      have first : graph.arc? (node, done) = some arc := stored 0 arc rfl
      have next := ih (done + 1) _ (pass.step feasible first) fun offset other found => by
        rw [Nat.add_assoc, Nat.add_comm 1]
        exact stored (offset + 1) other found
      rw [List.length_cons, Nat.add_comm rest.length, ← Nat.add_assoc]
      exact next

section Termination

variable (potential : ℕ → ℤ) (source : ℕ) (nodes : Finset ℕ)

/-- How far a label is above its lower bound. -/
def slack (search : Search) (node : ℕ) : ℕ :=
  match search.distance node with
  | none => 0
  | some label => (label - (potential node - potential source)).toNat

/-- The unlabelled nodes, and the room left below the labels. -/
def weight (search : Search) : ℕ ×ₗ ℕ :=
  toLex ((nodes.filter fun node => search.distance node = none).card,
    ∑ node ∈ nodes, slack potential source search node)

variable {potential source nodes}

theorem weight_relaxArc {graph : Graph} {search : Search} {node arcIndex : ℕ} {arc : Arc}
    {nodeDistance : ℤ} (feasible : Feasible graph potential)
    (valid : Valid graph source potential search)
    (stored : graph.arc? (node, arcIndex) = some arc) (inside : arc.toNode ∈ nodes)
    (label : search.distance node = some nodeDistance) :
    relaxArc node nodeDistance search arc arcIndex = search ∨
      weight potential source nodes (relaxArc node nodeDistance search arc arcIndex) <
        weight potential source nodes search := by
  have nextValid := valid.relaxArc feasible stored label
  rcases relaxArc_cases node nodeDistance search arc arcIndex valid.queued_iff with
    ⟨same, -⟩ | ⟨-, better, next, isNext, distances, -, -, -, -⟩
  · exact Or.inl same
  right
  rw [isNext] at nextValid ⊢
  have lowered : next.distance arc.toNode = some (nodeDistance + arc.cost) := by
    rw [distances, Function.update_self]
  have unchanged : ∀ other, other ≠ arc.toNode → next.distance other = search.distance other := by
    intro other different
    rw [distances, Function.update_of_ne different]
  have bound := nextValid.above _ _ lowered
  rw [Prod.Lex.lt_iff]
  cases known : search.distance arc.toNode with
  | none =>
      left
      apply Finset.card_lt_card
      refine Finset.ssubset_iff_of_subset ?_ |>.mpr ⟨arc.toNode, ?_, ?_⟩
      · intro other member
        obtain ⟨member, missing⟩ := Finset.mem_filter.mp member
        have different : other ≠ arc.toNode := by
          rintro rfl
          rw [lowered] at missing
          cases missing
        exact Finset.mem_filter.mpr ⟨member, unchanged other different ▸ missing⟩
      · exact Finset.mem_filter.mpr ⟨inside, known⟩
      · intro member
        have missing := (Finset.mem_filter.mp member).2
        rw [lowered] at missing
        cases missing
  | some old =>
      right
      rw [known] at better
      simp only [improves] at better
      constructor
      · change (Finset.card _) = Finset.card _
        congr 1
        apply Finset.filter_congr
        intro other _
        by_cases target : other = arc.toNode
        · subst target
          simp only [lowered, known, reduceCtorEq]
        · rw [unchanged other target]
      · change ∑ other ∈ nodes, slack potential source next other <
          ∑ other ∈ nodes, slack potential source search other
        apply Finset.sum_lt_sum
        · intro other _
          by_cases target : other = arc.toNode
          · subst target
            simp only [slack, lowered, known]
            omega
          · simp only [slack, unchanged other target, le_refl]
        · refine ⟨arc.toNode, inside, ?_⟩
          simp only [slack, lowered, known]
          omega

theorem weight_relaxArcs {graph : Graph} {node : ℕ} {nodeDistance : ℤ}
    (feasible : Feasible graph potential)
    (closed : ∀ position arc, graph.arc? position = some arc → arc.toNode ∈ nodes)
    (arcs : List Arc) (done : ℕ) (search : Search)
    (pass : Pass graph source potential node nodeDistance done search)
    (stored : ∀ offset arc, arcs[offset]? = some arc →
      graph.arc? (node, done + offset) = some arc) :
    relaxArcs node nodeDistance arcs done search = search ∨
      weight potential source nodes (relaxArcs node nodeDistance arcs done search) <
        weight potential source nodes search := by
  induction arcs generalizing done search with
  | nil => exact Or.inl rfl
  | cons arc rest ih =>
      have first : graph.arc? (node, done) = some arc := stored 0 arc rfl
      have later := ih (done + 1) _ (pass.step feasible first) fun offset other found => by
        rw [Nat.add_assoc, Nat.add_comm 1]
        exact stored (offset + 1) other found
      rcases weight_relaxArc feasible pass.valid first (closed _ _ first) pass.label with
        same | smaller
      · rw [same] at later
        simpa only [relaxArcs, same] using later
      · right
        rcases later with same | evenSmaller
        · simpa only [relaxArcs, same] using smaller
        · exact evenSmaller.trans smaller

end Termination

/-- A search that has run to its end: every labelled node is settled. -/
structure Finished (graph : Graph) (source : ℕ) (potential : ℕ → ℤ) (search : Search) : Prop where
  valid : Valid graph source potential search
  settled : ∀ node, Settled graph search node

theorem valid_startSearch (graph : Graph) (source : ℕ) (potential : ℕ → ℤ) :
    Valid graph source potential (startSearch source) := by
  have only : ∀ node label, (startSearch source).distance node = some label →
      node = source ∧ label = 0 := by
    intro node label known
    by_cases same : node = source
    · subst same
      refine ⟨rfl, ?_⟩
      simpa [startSearch, eq_comm] using known
    · simp [startSearch, Function.update_of_ne same] at known
  constructor
  · simp [startSearch]
  · intro node label known
    obtain ⟨rfl, rfl⟩ := only node label known
    omega
  · intro node label different known
    exact absurd (only node label known).1 different
  · intro node label known
    obtain ⟨rfl, -⟩ := only node label known
    exact ⟨0, .root⟩
  · rfl
  · intro node _; rfl
  · intro node; simp [startSearch]
  · exact List.nodup_singleton _

/-- One round of the queue loop. -/
private theorem settle_round {graph : Graph} {source : ℕ} {potential : ℕ → ℤ} (nodes : Finset ℕ)
    (feasible : Feasible graph potential)
    (closed : ∀ position arc, graph.arc? position = some arc → arc.toNode ∈ nodes) (search : Search)
    (valid : Valid graph source potential search)
    (settled : ∀ node, node ∉ search.pending → Settled graph search node) {rest : List ℕ}
    (waiting : search.pending = node :: rest) :
    ∃ next, (∀ fuel, settle graph (fuel + 1) search = settle graph fuel next) ∧
      Valid graph source potential next ∧
      (∀ node, node ∉ next.pending → Settled graph next node) ∧
      (weight potential source nodes next < weight potential source nodes search ∨
        (weight potential source nodes next = weight potential source nodes search ∧
          next.pending.length < search.pending.length)) := by
  let popped : Search := { search with pending := rest, queued := search.queued.erase node }
  have nodup : node ∉ rest ∧ rest.Nodup := List.nodup_cons.mp (waiting ▸ valid.queue_nodup)
  have poppedValid : Valid graph source potential popped := by
    refine ⟨valid.source_zero, valid.above, valid.traced, valid.rooted, valid.source_root,
      valid.unlabelled, fun other => ?_, nodup.2⟩
    rw [Finset.mem_erase, valid.queued_iff, waiting, List.mem_cons]
    constructor
    · rintro ⟨different, same | member⟩
      · exact absurd same different
      · exact member
    · intro member
      exact ⟨fun same => nodup.1 (same ▸ member), Or.inr member⟩
  have poppedSettled : ∀ other, other ∉ popped.pending → other ≠ node →
      Settled graph popped other := by
    intro other absent different
    apply settled other
    rw [waiting, List.mem_cons]
    rintro (same | member)
    · exact different same
    · exact absent member
  have shorter : popped.pending.length < search.pending.length := by
    rw [waiting]; exact Nat.lt_succ_self _
  cases known : search.distance node with
  | none =>
      refine ⟨popped, fun fuel => ?_, poppedValid, fun other absent => ?_, Or.inr ⟨rfl, shorter⟩⟩
      · rw [settle, waiting]
        simp only [known, popped]
      · by_cases same : other = node
        · subst same
          intro label found
          exact absurd (known.symm.trans found) (by simp)
        · exact poppedSettled other absent same
  | some nodeDistance =>
      have stored : ∀ offset arc, (graph node)[offset]? = some arc →
          graph.arc? (node, 0 + offset) = some arc := by
        intro offset arc found
        rw [Nat.zero_add]; exact found
      have start : Pass graph source potential node nodeDistance 0 popped :=
        ⟨poppedValid, known, poppedSettled, fun index _ scanned => absurd scanned.1 (by omega)⟩
      have pass := start.run feasible (graph node) 0 popped stored
      refine ⟨relaxArcs node nodeDistance (graph node) 0 popped, fun fuel => ?_, pass.valid,
        fun other absent => ?_, ?_⟩
      · rw [settle, waiting]
        simp only [known, popped]
      · by_cases same : other = node
        · subst same
          intro label found index arc kept
          obtain rfl : nodeDistance = label := Option.some.inj (pass.label.symm.trans found)
          refine pass.scanned index arc ⟨?_, kept⟩
          rw [Nat.zero_add]
          exact (List.getElem?_eq_some_iff.mp kept).1
        · exact pass.others other absent same
      · rcases weight_relaxArcs feasible closed (graph node) 0 popped start stored with
          same | smaller
        · rw [same]; exact Or.inr ⟨rfl, shorter⟩
        · exact Or.inl smaller

/-- **The queue runs empty.** With a feasible potential and finitely many targets,
the search from the source ends, for all sufficiently large fuel in one and the
same state, and there every labelled node is settled. -/
theorem settle_start {graph : Graph} {potential : ℕ → ℤ} (source : ℕ) (nodes : Finset ℕ)
    (feasible : Feasible graph potential)
    (closed : ∀ position arc, graph.arc? position = some arc → arc.toNode ∈ nodes) :
    ∃ final, (∀ᶠ fuel in Filter.atTop, settle graph fuel (startSearch source) = some final) ∧
      Finished graph source potential final := by
  have ends : ∀ (measure : (ℕ ×ₗ ℕ) ×ₗ ℕ) (search : Search),
      measure = toLex (weight potential source nodes search, search.pending.length) →
      Valid graph source potential search →
      (∀ node, node ∉ search.pending → Settled graph search node) →
      ∃ final, (∀ᶠ fuel in Filter.atTop, settle graph fuel search = some final) ∧
        Finished graph source potential final := by
    intro measure
    induction measure using WellFoundedLT.induction with
    | ind measure ih =>
        rintro search rfl valid settled
        cases waiting : search.pending with
        | nil =>
            refine ⟨search, Filter.eventually_atTop.mpr ⟨1, fun fuel large => ?_⟩, valid, ?_⟩
            · obtain ⟨less, rfl⟩ : ∃ less, fuel = less + 1 := ⟨fuel - 1, by omega⟩
              rw [settle, waiting]
            · intro node
              exact settled node (by simp [waiting])
        | cons node rest =>
            obtain ⟨next, round, nextValid, nextSettled, smaller⟩ :=
              settle_round nodes feasible closed search valid settled waiting
            obtain ⟨final, reached, finished⟩ :=
              ih (toLex (weight potential source nodes next, next.pending.length))
                (Prod.Lex.lt_iff.mpr smaller) next rfl nextValid nextSettled
            refine ⟨final, ?_, finished⟩
            obtain ⟨bound, after⟩ := Filter.eventually_atTop.mp reached
            refine Filter.eventually_atTop.mpr ⟨bound + 1, fun fuel large => ?_⟩
            obtain ⟨less, rfl⟩ : ∃ less, fuel = less + 1 := ⟨fuel - 1, by omega⟩
            rw [round less, after less (by omega)]
  apply ends _ _ rfl (valid_startSearch graph source potential)
  intro node absent label known
  have different : node ≠ source := fun same => absent (by simp [startSearch, same])
  simp [startSearch, Function.update_of_ne different] at known

end PlantManager.Flow

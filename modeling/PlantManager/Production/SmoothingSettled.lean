import PlantManager.Production.SmoothingCoverage

/-! # The came-back rule settles in one pass

One pass from left to right leaves no stint with a return, when the stints are in order and none
overlaps a later one at another station (`Production.applyCameBack_settles`): a merge
further right neither takes away the reason why an earlier stint stayed nor brings a return nearer.
`Production.overlapping_detours_unsettled` is a list with overlapping detours.
-/

namespace PlantManager.Production

open PlantManager.Mapping PlantManager.Ranking

namespace SmoothingData

variable (data : SmoothingData) (blocked : List Window)

/-- No stint has a return among the later ones. -/
def Unreturned (stints : List Stint) : Prop :=
  ∀ front current later, stints = front ++ current :: later →
    data.cameBackMatch current.2 blocked later = none

/-- A stint merges with a candidate over the detours between them. -/
structure IsReturn (current : WorkSegment ℤ) (between : List Stint) (candidate : Stint) :
    Prop where
  home : data.InMeteredScope current.wcName
  near : ∀ stint ∈ between ++ [candidate], stint.2.start - current.stop ≤ data.limit
  elsewhere : ∀ stint ∈ between, stint.2.wcName ≠ current.wcName
  same : candidate.2.wcName = current.wcName
  inside : ∀ stint ∈ between, current.stop ≤ stint.2.start ∧ stint.2.stop ≤ candidate.2.start
  metered : ∀ stint ∈ between, data.InMeteredScope stint.2.wcName
  clear : ¬CrossesBlocked current.stop candidate.2.start blocked
  alone : ¬data.WasRelieved current candidate.2
  covered : ∀ stint ∈ between, ¬data.HasOrphanedPallets stint.2

variable {data blocked}

variable {between later : List Stint} {current : WorkSegment ℤ}

variable {candidate : Stint} {detours : ℕ} {rest : List Stint}

/-- The return is the next stint, or it comes later and the next stint is a detour. -/
theorem exists_isReturn_cons :
    (∃ more found others, candidate :: rest = more ++ found :: others ∧
        detours = between.length + more.length ∧
        data.IsReturn blocked current (between ++ more) found) ↔
      (detours = between.length ∧ data.IsReturn blocked current between candidate) ∨
      ∃ more found others, rest = more ++ found :: others ∧
        detours = (between ++ [candidate]).length + more.length ∧
        data.IsReturn blocked current (between ++ [candidate] ++ more) found := by
  have regroup : ∀ more : List Stint,
      between ++ candidate :: more = between ++ [candidate] ++ more := fun more => by simp
  have count : ∀ more : List Stint, between.length + (candidate :: more).length =
      (between ++ [candidate]).length + more.length := fun more => by simp; omega
  constructor
  · rintro ⟨more, found, others, split, place, returns⟩
    cases more with
    | nil =>
        obtain ⟨rfl, rfl⟩ := List.cons.inj split
        rw [List.append_nil] at returns
        exact Or.inl ⟨place, returns⟩
    | cons head more =>
        obtain ⟨rfl, rfl⟩ := List.cons.inj split
        exact Or.inr ⟨more, found, others, rfl, place.trans (count more), regroup more ▸ returns⟩
  · rintro (⟨place, returns⟩ | ⟨more, found, others, rfl, place, returns⟩)
    · exact ⟨[], candidate, rest, rfl, place, (List.append_nil between).symm ▸ returns⟩
    · exact ⟨candidate :: more, found, others, rfl, place.trans (count more).symm,
        (regroup more).symm ▸ returns⟩

theorem findReturn_eq_some_iff (home : data.InMeteredScope current.wcName)
    (near : ∀ stint ∈ between, stint.2.start - current.stop ≤ data.limit)
    (elsewhere : ∀ stint ∈ between, stint.2.wcName ≠ current.wcName) :
    data.findReturn current blocked between later = some detours ↔
      ∃ more candidate rest, later = more ++ candidate :: rest ∧
        detours = between.length + more.length ∧
        data.IsReturn blocked current (between ++ more) candidate := by
  induction later generalizing between with
  | nil => simp [findReturn]
  | cons candidate rest ih =>
      rw [exists_isReturn_cons, findReturn]
      by_cases far : data.limit < candidate.2.start - current.stop
      · rw [if_pos far]
        refine iff_of_false (by rintro ⟨⟩) ?_
        rintro (⟨-, returns⟩ | ⟨more, found, others, -, -, returns⟩)
        · exact absurd (returns.near candidate (by simp)) (not_le.mpr far)
        · exact absurd (returns.near candidate (by simp)) (not_le.mpr far)
      · rw [if_neg far]
        by_cases away : candidate.2.wcName ≠ current.wcName
        · rw [if_pos away, ih]
          · exact (or_iff_right fun both => away both.2.same).symm
          · exact List.forall_mem_append.mpr ⟨near, List.forall_mem_singleton.mpr (not_lt.mp far)⟩
          · exact List.forall_mem_append.mpr ⟨elsewhere, List.forall_mem_singleton.mpr away⟩
        · have same := not_not.mp away
          rw [if_neg away, or_iff_left]
          · constructor
            · intro found
              iterate 5
                split at found
                · cases found
              rename_i inside metered clear alone covered
              refine ⟨(Option.some.inj found).symm, home, ?_, elsewhere, same, ?_, ?_, clear, alone,
                fun stint member orphaned => covered ⟨stint, member, orphaned⟩⟩
              · exact List.forall_mem_append.mpr
                  ⟨near, List.forall_mem_singleton.mpr (not_lt.mp far)⟩
              · exact fun stint member =>
                  ⟨not_lt.mp fun early => inside ⟨stint, member, Or.inl early⟩,
                    not_lt.mp fun late => inside ⟨stint, member, Or.inr late⟩⟩
              · exact fun stint member => not_not.mp fun out => metered ⟨stint, member, out⟩
            · rintro ⟨rfl, returns⟩
              rw [if_neg, if_neg, if_neg returns.clear, if_neg returns.alone, if_neg]
              · rintro ⟨stint, member, orphaned⟩
                exact returns.covered stint member orphaned
              · rintro ⟨stint, member, out⟩
                exact out (returns.metered stint member)
              · rintro ⟨stint, member, early | late⟩
                · exact not_lt.mpr (returns.inside stint member).1 early
                · exact not_lt.mpr (returns.inside stint member).2 late
          · rintro ⟨more, found, others, -, -, returns⟩
            exact returns.elsewhere candidate (by simp) same

theorem cameBackMatch_eq_some_iff :
    data.cameBackMatch current blocked later = some detours ↔
      ∃ between candidate rest, later = between ++ candidate :: rest ∧ detours = between.length ∧
        data.IsReturn blocked current between candidate := by
  rw [cameBackMatch]
  by_cases home : data.InMeteredScope current.wcName
  · rw [if_pos home, findReturn_eq_some_iff home (List.forall_mem_nil _) (List.forall_mem_nil _)]
    simp only [List.nil_append, List.length_nil, Nat.zero_add]
  · rw [if_neg home]
    refine iff_of_false (by rintro ⟨⟩) ?_
    rintro ⟨_, _, _, _, _, returns⟩
    exact home returns.home

/-! ## What a pass absorbs -/

/-- A stint that absorbed the stints after it. -/
structure Swallows (data : SmoothingData) (head : Stint) (absorbed : List Stint) (merged : Stint) :
    Prop where
  wcName : merged.2.wcName = head.2.wcName
  person : personKey merged.2 = personKey head.2
  start : merged.2.start = head.2.start
  stop : ∀ stint ∈ head :: absorbed, stint.2.stop ≤ merged.2.stop
  metered : ∀ stint ∈ absorbed, data.InMeteredScope stint.2.wcName
  covered : ∀ stint ∈ absorbed, stint.2.wcName = head.2.wcName ∨ ¬data.HasOrphanedPallets stint.2

/-- Every stint of the second list absorbed the next ones of the first. -/
inductive Folded (data : SmoothingData) : List Stint → List Stint → Prop
  | nil : Folded data [] []
  | cons {head merged : Stint} {absorbed rest folded : List Stint}
      (swallows : data.Swallows head absorbed merged) (tail : Folded data rest folded) :
      Folded data (head :: (absorbed ++ rest)) (merged :: folded)

theorem Swallows.refl (stint : Stint) : data.Swallows stint [] stint :=
  ⟨rfl, rfl, rfl, List.forall_mem_singleton.mpr le_rfl, List.forall_mem_nil _, List.forall_mem_nil _⟩

theorem Swallows.trans {head middle merged : Stint} {absorbed more : List Stint}
    (first : data.Swallows head absorbed middle) (second : data.Swallows middle more merged) :
    data.Swallows head (absorbed ++ more) merged where
  wcName := second.wcName.trans first.wcName
  person := second.person.trans first.person
  start := second.start.trans first.start
  stop := by
    rw [← List.cons_append]
    refine List.forall_mem_append.mpr ⟨fun stint member => ?_, fun stint member => ?_⟩
    · exact (first.stop stint member).trans (second.stop middle List.mem_cons_self)
    · exact second.stop stint (List.mem_cons_of_mem _ member)
  metered := List.forall_mem_append.mpr ⟨first.metered, second.metered⟩
  covered := List.forall_mem_append.mpr
    ⟨first.covered, fun stint member => first.wcName ▸ second.covered stint member⟩

theorem stop_le_foldl_max {stints : List Stint} {stint : Stint} (member : stint ∈ stints)
    (first : ℤ) :
    stint.2.stop ≤ stints.foldl (fun stop stint => max stop stint.2.stop) first := by
  induction stints generalizing first with
  | nil => exact absurd member List.not_mem_nil
  | cons head rest ih =>
      rcases List.mem_cons.mp member with rfl | later
      · exact (le_max_right _ _).trans (le_foldl_max rest _)
      · exact ih later _

theorem swallows_absorb {current : Stint}
    (returns : data.IsReturn blocked current.2 between candidate) :
    data.Swallows current (between ++ [candidate]) (absorb current (between ++ [candidate])) where
  wcName := rfl
  person := rfl
  start := rfl
  stop := List.forall_mem_cons.mpr
    ⟨le_foldl_max _ _, fun _ member => stop_le_foldl_max member current.2.stop⟩
  metered := List.forall_mem_append.mpr
    ⟨returns.metered, List.forall_mem_singleton.mpr (returns.same ▸ returns.home)⟩
  covered := List.forall_mem_append.mpr
    ⟨fun stint member => Or.inr (returns.covered stint member),
      List.forall_mem_singleton.mpr (Or.inl returns.same)⟩

/-- One step of the pass, with the stints that it merges. -/
theorem exists_isReturn {current : Stint}
    (found : data.cameBackMatch current.2 blocked later = some detours) :
    ∃ between candidate rest, later = between ++ candidate :: rest ∧
      data.IsReturn blocked current.2 between candidate ∧
      absorb current (later.take (detours + 1)) :: later.drop (detours + 1) =
        absorb current (between ++ [candidate]) :: rest := by
  obtain ⟨between, candidate, rest, rfl, rfl, returns⟩ := cameBackMatch_eq_some_iff.mp found
  have split : between ++ candidate :: rest = between ++ [candidate] ++ rest := by simp
  have length : between.length + 1 = (between ++ [candidate]).length := by simp
  refine ⟨between, candidate, rest, rfl, returns, ?_⟩
  rw [split, length, List.take_left, List.drop_left]

theorem folded_applyCameBack (stints : List Stint) :
    data.Folded stints (data.applyCameBack blocked stints) := by
  induction stints using SmoothingData.applyCameBack.induct data blocked with
  | case1 =>
      rw [applyCameBack]
      exact .nil
  | case2 current later found ih =>
      rw [applyCameBack_none found]
      exact .cons (.refl current) ih
  | case3 current later detours found ih =>
      obtain ⟨between, candidate, rest, rfl, returns, split⟩ := exists_isReturn found
      rw [applyCameBack_some found]
      rw [split] at ih ⊢
      generalize data.applyCameBack blocked _ = settled at ih ⊢
      generalize start : absorb current (between ++ [candidate]) :: rest = stints at ih
      cases ih with
      | nil => cases start
      | cons swallows tail =>
          obtain ⟨rfl, rfl⟩ := List.cons.inj start
          have both := (swallows_absorb returns).trans swallows
          have whole := Folded.cons both tail
          simpa using whole

/-! ## What a pass keeps -/

/-- The stints of one person in the order of their starts; none overlaps a later one at another
station. -/
structure InStartOrder (key : PersonKey) (stints : List Stint) : Prop where
  person : ∀ stint ∈ stints, personKey stint.2 = key
  ordered : stints.Pairwise fun first second => first.2.start ≤ second.2.start
  apart : stints.Pairwise fun first second =>
    first.2.wcName ≠ second.2.wcName → first.2.stop ≤ second.2.start

variable {key : PersonKey}

theorem InStartOrder.sublist {stints part : List Stint} (inOrder : InStartOrder key stints)
    (sub : part.Sublist stints) : InStartOrder key part where
  person stint member := inOrder.person stint (sub.mem member)
  ordered := inOrder.ordered.sublist sub
  apart := inOrder.apart.sublist sub

/-- Pallets that nobody else covers stay so when the stint is made longer. -/
theorem HasOrphanedPallets.mono {inner outer : WorkSegment ℤ} (wcName : inner.wcName = outer.wcName)
    (person : personKey inner = personKey outer) (start : outer.start ≤ inner.start)
    (stop : inner.stop ≤ outer.stop) (orphaned : data.HasOrphanedPallets inner) :
    data.HasOrphanedPallets outer := by
  obtain ⟨pallet, made, nobody⟩ := orphaned
  refine ⟨pallet, ?_, ?_⟩
  · rw [palletsDuring] at made ⊢
    rw [← wcName]
    cases known : data.productionTimesByWc.bind fun times => times.get inner.wcName with
    | none =>
        rw [known] at made
        exact absurd made List.not_mem_nil
    | some times =>
        rw [known, Option.map_some, Option.getD_some, List.mem_filter] at made
        rw [Option.map_some, Option.getD_some, List.mem_filter]
        obtain ⟨started, lasts⟩ := of_decide_eq_true made.2
        exact ⟨made.1, decide_eq_true ⟨start.trans started, lasts.trans_le stop⟩⟩
  · rw [others, ← wcName, ← person]
    exact nobody

theorem CrossesBlocked.mono {left early late : ℤ} (order : early ≤ late)
    (crosses : CrossesBlocked left early blocked) : CrossesBlocked left late blocked := by
  obtain ⟨gap, window, member, starts, ends⟩ := crosses
  exact ⟨gap.trans_le order, window, member, starts.trans_le order, ends⟩

theorem WasRelieved.mono {early late : WorkSegment ℤ} (order : early.start ≤ late.start)
    (relieved : data.WasRelieved current early) : data.WasRelieved current late := by
  obtain ⟨other, member, starts, ends, gap⟩ := relieved
  exact ⟨other, member, starts.trans_le order, ends, fun ⟨before, after⟩ =>
    gap ⟨before, order.trans_lt after⟩⟩

/-- Every stint is inside one that is left, which has no better reason to be a detour. -/
theorem Folded.exists_merged {stints folded : List Stint} (folds : data.Folded stints folded)
    (inOrder : InStartOrder key stints) {stint : Stint} (member : stint ∈ stints) :
    ∃ merged ∈ folded, merged.2.start ≤ stint.2.start ∧ stint.2.stop ≤ merged.2.stop ∧
      (data.InMeteredScope merged.2.wcName → data.InMeteredScope stint.2.wcName) ∧
      (data.HasOrphanedPallets stint.2 → data.HasOrphanedPallets merged.2) := by
  induction folds with
  | nil => exact absurd member List.not_mem_nil
  | @cons head merged absorbed rest folded swallows tail ih =>
      rw [← List.cons_append] at member
      rcases List.mem_append.mp member with inGroup | later
      · have after : head.2.start ≤ stint.2.start := by
          rcases List.mem_cons.mp inGroup with rfl | inside
          · exact le_rfl
          · exact (List.pairwise_cons.mp inOrder.ordered).1 stint (List.mem_append_left _ inside)
        have person : personKey stint.2 = personKey merged.2 := by
          rw [swallows.person, inOrder.person head List.mem_cons_self]
          exact inOrder.person stint member
        have within := swallows.start.le.trans after
        refine ⟨merged, List.mem_cons_self, within, swallows.stop stint inGroup, fun metered => ?_,
          fun orphaned => ?_⟩
        · rcases List.mem_cons.mp inGroup with rfl | inside
          · exact swallows.wcName ▸ metered
          · exact swallows.metered stint inside
        · have same : stint.2.wcName = merged.2.wcName := by
            rw [swallows.wcName]
            rcases List.mem_cons.mp inGroup with rfl | inside
            · rfl
            · exact (swallows.covered stint inside).resolve_right (not_not.mpr orphaned)
          exact orphaned.mono same person within (swallows.stop stint inGroup)
      · obtain ⟨found, isLeft, inside⟩ := ih (inOrder.sublist
          ((List.sublist_append_right absorbed rest).trans (List.sublist_cons_self _ _))) later
        exact ⟨found, List.mem_cons_of_mem merged isLeft, inside⟩

theorem Folded.split {stints front : List Stint} {merged : Stint}
    (folds : data.Folded stints (front ++ merged :: rest)) :
    ∃ before head after, stints = before ++ head :: after ∧ data.Folded before front ∧
      merged.2.wcName = head.2.wcName ∧ merged.2.start = head.2.start := by
  induction front generalizing stints with
  | nil =>
      cases folds with
      | cons swallows tail => exact ⟨[], _, _, rfl, .nil, swallows.wcName, swallows.start⟩
  | cons first front ih =>
      cases folds with
      | @cons head _ absorbed _ _ swallows tail =>
          obtain ⟨before, found, after, rfl, folds, same⟩ := ih tail
          exact ⟨head :: (absorbed ++ before), found, after, by simp, .cons swallows folds, same⟩

/-- Merges further right do not bring a return nearer. -/
theorem cameBackMatch_folded {folded : List Stint} (inOrder : InStartOrder key later)
    (folds : data.Folded later folded) (stays : data.cameBackMatch current blocked later = none) :
    data.cameBackMatch current blocked folded = none := by
  rw [Option.eq_none_iff_forall_ne_some]
  intro detours found
  obtain ⟨between, candidate, rest, rfl, -, returns⟩ := cameBackMatch_eq_some_iff.mp found
  obtain ⟨before, head, after, rfl, front, wcName, start⟩ := folds.split
  have atHome : head.2.wcName = current.wcName := wcName.symm.trans returns.same
  -- the first stint at the station, at the latest the head of the return
  obtain ⟨first, isFirst⟩ : ∃ first, (before ++ [head]).find?
      (fun stint => stint.2.wcName = current.wcName) = some first :=
    Option.isSome_iff_exists.mp (List.find?_isSome.mpr ⟨head, by simp, decide_eq_true atHome⟩)
  obtain ⟨same, nearer, others, split, away⟩ := List.find?_eq_some_iff_append.mp isFirst
  have same := of_decide_eq_true same
  have away : ∀ stint ∈ nearer, stint.2.wcName ≠ current.wcName := fun stint member => by
    simpa using away stint member
  have whole : before ++ head :: after = nearer ++ first :: (others ++ after) := by
    rw [← List.singleton_append, ← List.append_assoc, split, List.append_assoc, List.cons_append]
  have early : ∀ stint ∈ before ++ [head], stint.2.start ≤ candidate.2.start := by
    rw [start]
    refine List.forall_mem_append.mpr ⟨fun stint member => ?_, List.forall_mem_singleton.mpr le_rfl⟩
    exact (List.pairwise_append.mp inOrder.ordered).2.2 stint member head List.mem_cons_self
  have inPrefix : ∀ stint ∈ nearer ++ [first], stint ∈ before ++ [head] := by
    intro stint member
    rw [split]
    refine List.mem_append.mpr ((List.mem_append.mp member).imp_right fun isLast => ?_)
    rw [List.mem_singleton.mp isLast]
    exact List.mem_cons_self
  have firstEarly : first.2.start ≤ candidate.2.start :=
    early first (inPrefix first (by simp))
  have merged : ∀ stint ∈ nearer, ∃ merged ∈ between, merged.2.start ≤ stint.2.start ∧
      stint.2.stop ≤ merged.2.stop ∧
      (data.InMeteredScope merged.2.wcName → data.InMeteredScope stint.2.wcName) ∧
      (data.HasOrphanedPallets stint.2 → data.HasOrphanedPallets merged.2) := by
    intro stint member
    refine front.exists_merged (inOrder.sublist (List.sublist_append_left _ _)) ?_
    rcases List.mem_append.mp (inPrefix stint (List.mem_append_left _ member)) with inside | isHead
    · exact inside
    · exact absurd (List.mem_singleton.mp isHead ▸ atHome) (away stint member)
  have apart : ∀ stint ∈ nearer, stint.2.stop ≤ first.2.start := by
    intro stint member
    have pairs := inOrder.apart
    rw [whole] at pairs
    exact (List.pairwise_append.mp pairs).2.2 stint member first List.mem_cons_self
      fun equal => away stint member (equal.trans same)
  have wouldReturn : data.IsReturn blocked current nearer first := by
    refine ⟨returns.home, fun stint member => ?_, away, same, fun stint member => ?_,
      fun stint member => ?_, fun crosses => returns.clear (crosses.mono firstEarly),
      fun relieved => returns.alone (relieved.mono firstEarly), fun stint member orphaned => ?_⟩
    · have near := returns.near candidate (by simp)
      exact (sub_le_sub_right (early stint (inPrefix stint member)) _).trans near
    · obtain ⟨found, isBetween, starts, -⟩ := merged stint member
      exact ⟨(returns.inside found isBetween).1.trans starts, apart stint member⟩
    · obtain ⟨found, isBetween, -, -, metered, -⟩ := merged stint member
      exact metered (returns.metered found isBetween)
    · obtain ⟨found, isBetween, -, -, -, orphans⟩ := merged stint member
      exact returns.covered found isBetween (orphans orphaned)
  have none_ := stays.symm.trans (cameBackMatch_eq_some_iff.mpr
    ⟨nearer, first, others ++ after, whole, rfl, wouldReturn⟩)
  cases none_

theorem unreturned_cons {current : Stint} :
    data.Unreturned blocked (current :: later) ↔
      data.cameBackMatch current.2 blocked later = none ∧ data.Unreturned blocked later := by
  constructor
  · intro settled
    exact ⟨settled [] current later rfl, fun front other rest split =>
      settled (current :: front) other rest (congrArg (current :: ·) split)⟩
  · rintro ⟨stays, settled⟩ front other rest split
    cases front with
    | nil =>
        obtain ⟨rfl, rfl⟩ := List.cons.inj split
        exact stays
    | cons first front =>
        obtain ⟨-, split⟩ := List.cons.inj split
        exact settled front other rest split

/-- A merge keeps the stints in order. -/
theorem inStartOrder_absorb {current : Stint}
    (inOrder : InStartOrder key (current :: (between ++ candidate :: rest)))
    (returns : data.IsReturn blocked current.2 between candidate) :
    InStartOrder key (absorb current (between ++ [candidate]) :: rest) := by
  have part : (current :: rest).Sublist (current :: (between ++ candidate :: rest)) :=
    ((List.sublist_cons_self candidate rest).trans (List.sublist_append_right _ _)).cons_cons _
  obtain ⟨person, ordered, apart⟩ := inOrder.sublist part
  obtain ⟨after, ordered⟩ := List.pairwise_cons.mp ordered
  obtain ⟨away, apart⟩ := List.pairwise_cons.mp apart
  obtain ⟨-, candidateOrdered, -⟩ := List.pairwise_append.mp (List.pairwise_cons.mp
    inOrder.ordered).2
  obtain ⟨-, candidateApart, -⟩ := List.pairwise_append.mp (List.pairwise_cons.mp inOrder.apart).2
  refine ⟨?_, List.pairwise_cons.mpr ⟨after, ordered⟩, List.pairwise_cons.mpr ⟨?_, apart⟩⟩
  · exact List.forall_mem_cons.mpr (List.forall_mem_cons.mp person)
  · intro stint member elsewhere
    refine foldl_max_le (away stint member elsewhere) (List.forall_mem_append.mpr ⟨?_, ?_⟩)
    · exact fun detour isDetour => (returns.inside detour isDetour).2.trans
        ((List.pairwise_cons.mp candidateOrdered).1 stint member)
    · exact List.forall_mem_singleton.mpr ((List.pairwise_cons.mp candidateApart).1 stint member
        fun equal => elsewhere (returns.same.symm.trans equal))

end SmoothingData

/-- One pass leaves no stint with a return. -/
theorem applyCameBack_settles (data : SmoothingData) (blocked : List Window) {key : PersonKey}
    {stints : List Stint} (inOrder : SmoothingData.InStartOrder key stints) :
    data.Unreturned blocked (data.applyCameBack blocked stints) := by
  induction stints using SmoothingData.applyCameBack.induct data blocked with
  | case1 =>
      intro front current later split
      rw [SmoothingData.applyCameBack] at split
      exact absurd split (by simp)
  | case2 current later found ih =>
      have rest := inOrder.sublist (List.sublist_cons_self current later)
      rw [SmoothingData.applyCameBack_none found, SmoothingData.unreturned_cons]
      exact ⟨SmoothingData.cameBackMatch_folded rest (SmoothingData.folded_applyCameBack later)
        found, ih rest⟩
  | case3 current later detours found ih =>
      obtain ⟨between, candidate, rest, rfl, returns, split⟩ := SmoothingData.exists_isReturn found
      rw [SmoothingData.applyCameBack_some found]
      apply ih
      rw [split]
      exact SmoothingData.inStartOrder_absorb inOrder returns

/-- Stints of one person, in the order of their starts. -/
def detourDay (segments : List (WorkSegment ℤ)) : SmoothingInput where
  segments := segments
  blockedWindows := none
  productionTimesByWc := none
  meteredWcNames := none
  limit := 300000000

def quickDetour : SmoothingInput :=
  detourDay [minutes "Saw" 1 0 10, minutes "Press" 1 10 12, minutes "Saw" 1 12 20]

theorem quickDetour_settles : quickDetour.data.Unreturned []
    (quickDetour.data.applyCameBack [] quickDetour.stints) :=
  @applyCameBack_settles quickDetour.data [] (.odooId 1) quickDetour.stints
    ⟨by decide, by decide, by decide⟩

def overlappingDay : SmoothingInput := detourDay
  [minutes "Saw" 1 0 10, minutes "Press" 1 10 11, minutes "Lathe" 1 11 13, minutes "Saw" 1 12 13,
    minutes "Press" 1 13 14, minutes "Saw" 1 14 20]

/-- The stint at the lathe runs into the first return to the saw; after both are absorbed by the
press, the second return is near. -/
theorem overlapping_detours_unsettled :
    ¬∀ (data : SmoothingData) (blocked : List Window) (key : PersonKey) (stints : List Stint),
      (∀ stint ∈ stints, personKey stint.2 = key) →
      (stints.Pairwise fun first second => first.2.start ≤ second.2.start) →
      data.Unreturned blocked (data.applyCameBack blocked stints) := by
  intro claim
  have settled := claim overlappingDay.data [] (.odooId 1) overlappingDay.stints (by decide)
    (by decide)
  have result : overlappingDay.data.applyCameBack [] overlappingDay.stints =
      [(0, minutes "Saw" 1 0 10), (1, minutes "Press" 1 10 14), (5, minutes "Saw" 1 14 20)] := by
    decide +kernel
  rw [result, SmoothingData.unreturned_cons] at settled
  exact absurd settled.1 (by decide)

end PlantManager.Production

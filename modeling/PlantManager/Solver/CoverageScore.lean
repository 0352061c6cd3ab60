import PlantManager.Solver.MinimumCoverage
import PlantManager.Solver.SingleMatchingOptimal

/-! # Scores of coverage results

`Solver.resultIsBetter_iff`: results are compared by one score.
`Solver.resultScore_append_le`: a score that is better for the crews
alone stays better when the same decisions are added to both.
-/

namespace PlantManager.Solver

open Ranking

variable {lower : String → String}

/-- The score of a result. -/
def resultScore (lower : String → String) (result : CoverageResult) : Score :=
  toLex (-(result.staffedCenters.length : ℤ), toLex (overrideCount result.decisions,
    toLex (totalRankCost result.decisions, result.decisions.map (decisionKey lower))))

theorem resultIsBetter_iff {candidate current : CoverageResult} :
    resultIsBetter lower candidate (some current) = true ↔
      resultScore lower candidate < resultScore lower current := by
  unfold resultIsBetter resultScore
  simp only [Prod.Lex.toLex_lt_toLex]
  split
  · rename_i staffed
    rw [decide_eq_true_eq]
    omega
  · rename_i staffed
    split
    · rename_i overrides
      rw [decide_eq_true_eq]
      omega
    · rename_i overrides
      split
      · rename_i cost
        rw [decide_eq_true_eq]
        constructor
        · intro less
          exact Or.inr ⟨by omega, Or.inr ⟨by omega, Or.inl less⟩⟩
        · rintro (more | ⟨-, fewer | ⟨-, less | ⟨same, -⟩⟩⟩)
          · omega
          · omega
          · exact less
          · exact absurd same cost
      · rename_i cost
        rw [decide_eq_true_eq]
        constructor
        · intro earlier
          exact Or.inr ⟨by omega, Or.inr ⟨by omega, Or.inr ⟨by omega, earlier⟩⟩⟩
        · rintro (more | ⟨-, fewer | ⟨-, less | ⟨-, earlier⟩⟩⟩)
          · omega
          · omega
          · omega
          · exact earlier

/-- The distinct centers of some decisions. -/
def staffedNames (decisions : List AssignmentDecision) : List String :=
  (decisions.map AssignmentDecision.center).dedup

/-- Decisions for centers of the list that are not staffed already. -/
def Open (requirements : List CenterRequirement) (decisions : List AssignmentDecision) : Prop :=
  ∀ item ∈ decisions, ∃ requirement ∈ requirements, requirement.center = item.center ∧
    requirement.remainingSlots ≠ 0

section Assembled

variable {requirements : List CenterRequirement}

variable {first second : List AssignmentDecision}

theorem Open.append (firstOpen : Open requirements first) (secondOpen : Open requirements second) :
    Open requirements (first ++ second) := by
  intro item member
  exact (List.mem_append.mp member).elim (firstOpen item) (secondOpen item)

variable {decisions : List AssignmentDecision}

/-- The staffed centers are those staffed from the start and those of the decisions. -/
theorem countP_staffed (distinct : (requirements.map CenterRequirement.center).Nodup)
    (isOpen : Open requirements decisions) :
    requirements.countP (fun requirement => Staffed decisions requirement) =
      requirements.countP (fun requirement => requirement.remainingSlots = 0) +
        (staffedNames decisions).length := by
  have split : requirements.countP (fun requirement => Staffed decisions requirement) =
      requirements.countP (fun requirement => requirement.remainingSlots = 0) +
        requirements.countP fun requirement => requirement.remainingSlots ≠ 0 ∧
          requirement.center ∈ decisions.map AssignmentDecision.center := by
    clear distinct isOpen
    induction requirements with
    | nil => rfl
    | cons requirement rest ih =>
        rw [List.countP_cons, List.countP_cons, List.countP_cons, ih]
        unfold Staffed
        by_cases zero : requirement.remainingSlots = 0 <;>
          by_cases member : requirement.center ∈ decisions.map AssignmentDecision.center <;>
          simp only [zero, member, ne_eq, not_true_eq_false, not_false_eq_true, false_and, true_and,
            or_true, or_self, or_false, decide_true, decide_false, Bool.false_eq_true,
            ↓reduceIte] <;> omega
  rw [split, Nat.add_right_inj, List.countP_eq_length_filter,
    ← List.length_map CenterRequirement.center]
  apply List.Perm.length_eq
  refine (List.perm_ext_iff_of_nodup
    (distinct.sublist (List.filter_sublist.map CenterRequirement.center))
    (List.nodup_dedup _)).mpr fun name => ?_
  rw [List.mem_dedup]
  constructor
  · intro member
    obtain ⟨requirement, kept, rfl⟩ := List.mem_map.mp member
    exact (of_decide_eq_true (List.mem_filter.mp kept).2).2
  · intro member
    obtain ⟨item, inside, rfl⟩ := List.mem_map.mp member
    obtain ⟨requirement, listed, same, positive⟩ := isOpen item inside
    rw [← same]
    refine List.mem_map_of_mem (List.mem_filter.mpr ⟨listed, decide_eq_true ⟨positive, ?_⟩⟩)
    rw [same]
    exact List.mem_map_of_mem inside

theorem overrideCount_perm (perm : first.Perm second) :
    overrideCount first = overrideCount second := perm.countP_eq _

theorem totalRankCost_perm (perm : first.Perm second) :
    totalRankCost first = totalRankCost second := (perm.map _).sum_eq

theorem decisionKeys_perm (perm : first.Perm second) :
    decisionKeys lower first = decisionKeys lower second := sortKeys_eq_of_perm (perm.map _)

/-- The score of an assembled result in terms of its decisions. -/
theorem resultScore_assembleResult (distinct : (requirements.map CenterRequirement.center).Nodup)
    (isOpen : Open requirements decisions) :
    resultScore lower (assembleResult lower requirements decisions) =
      toLex (-(requirements.countP (fun requirement => requirement.remainingSlots = 0) +
          (staffedNames decisions).length : ℤ),
        toLex (overrideCount decisions, toLex (totalRankCost decisions,
          decisionKeys lower decisions))) := by
  have perm : (sortDecisions lower decisions).Perm decisions := sortBy_perm _ decisions
  have staffed : (assembleResult lower requirements decisions).staffedCenters.length =
      requirements.countP (fun requirement => requirement.remainingSlots = 0) +
        (staffedNames decisions).length := by
    rw [← countP_staffed distinct isOpen, List.countP_eq_length_filter]
    unfold assembleResult
    simp only [length_sortBy]
    rw [(distinct.sublist (List.filter_sublist.map CenterRequirement.center)).dedup,
      List.length_map]
  unfold resultScore
  rw [staffed]
  change toLex (-((_ : ℕ) : ℤ), toLex (overrideCount (sortDecisions lower decisions),
    toLex (totalRankCost (sortDecisions lower decisions),
      (sortDecisions lower decisions).map (decisionKey lower)))) = _
  rw [overrideCount_perm perm, totalRankCost_perm perm, map_decisionKey_sortDecisions]
  push_cast
  rfl

end Assembled

theorem overrideCount_append (first second : List AssignmentDecision) :
    overrideCount (first ++ second) = overrideCount first + overrideCount second :=
  List.countP_append

theorem totalRankCost_append (first second : List AssignmentDecision) :
    totalRankCost (first ++ second) = totalRankCost first + totalRankCost second := by
  unfold totalRankCost
  rw [List.map_append, List.sum_append]

theorem length_staffedNames_append {first second : List AssignmentDecision}
    (apart : List.Disjoint (first.map AssignmentDecision.center)
      (second.map AssignmentDecision.center)) :
    (staffedNames (first ++ second)).length =
      (staffedNames first).length + (staffedNames second).length := by
  unfold staffedNames
  rw [List.map_append, ← List.length_append]
  apply List.Perm.length_eq
  refine (List.perm_ext_iff_of_nodup (List.nodup_dedup _) ?_).mpr fun name => by simp
  refine List.Nodup.append (List.nodup_dedup _) (List.nodup_dedup _) fun name left right => ?_
  exact apart (List.mem_dedup.mp left) (List.mem_dedup.mp right)

/-- Adding the same to both sides keeps a lexicographic comparison. -/
theorem lex_add_le {staffed otherStaffed cost otherCost : ℤ} {overrides otherOverrides : ℕ}
    {κ : Type*} [LinearOrder κ] {keys otherKeys longer otherLonger : κ}
    (addedStaffed : ℤ) (addedOverrides : ℕ) (addedCost : ℤ)
    (below : toLex (staffed, toLex (overrides, toLex (cost, keys))) ≤
      toLex (otherStaffed, toLex (otherOverrides, toLex (otherCost, otherKeys))))
    (keysBelow : keys ≤ otherKeys → longer ≤ otherLonger) :
    toLex (staffed + addedStaffed, toLex (overrides + addedOverrides,
        toLex (cost + addedCost, longer))) ≤
      toLex (otherStaffed + addedStaffed, toLex (otherOverrides + addedOverrides,
        toLex (otherCost + addedCost, otherLonger))) := by
  simp only [Prod.Lex.toLex_le_toLex, add_lt_add_iff_right, add_left_inj] at below ⊢
  tauto

/-- **Better crews stay better** when the same decisions are added. -/
theorem resultScore_append_le {requirements : List CenterRequirement}
    (distinct : (requirements.map CenterRequirement.center).Nodup)
    {first second added : List AssignmentDecision}
    (firstOpen : Open requirements (first ++ added))
    (secondOpen : Open requirements (second ++ added)) (sameLength : first.length = second.length)
    (firstApart : List.Disjoint (first.map AssignmentDecision.center)
      (added.map AssignmentDecision.center))
    (secondApart : List.Disjoint (second.map AssignmentDecision.center)
      (added.map AssignmentDecision.center))
    (below : prefixScore lower first ≤ prefixScore lower second) :
    resultScore lower (assembleResult lower requirements (first ++ added)) ≤
      resultScore lower (assembleResult lower requirements (second ++ added)) := by
  have keysBelow : decisionKeys lower first ≤ decisionKeys lower second →
      decisionKeys lower (first ++ added) ≤ decisionKeys lower (second ++ added) := by
    intro keys
    unfold decisionKeys
    rw [List.map_append, List.map_append]
    exact sortKeys_append_le (by simpa using sameLength) keys _
  rw [resultScore_assembleResult distinct firstOpen, resultScore_assembleResult distinct secondOpen,
    length_staffedNames_append firstApart, length_staffedNames_append secondApart,
    overrideCount_append, overrideCount_append, totalRankCost_append, totalRankCost_append]
  have compared := lex_add_le
    (-(requirements.countP (fun requirement => requirement.remainingSlots = 0) : ℤ) -
      (staffedNames added).length) (overrideCount added) (totalRankCost added) below keysBelow
  refine le_of_eq_of_le ?_ (compared.trans_eq ?_)
  · congr 2
    unfold staffedNames
    push_cast
    ring
  · congr 2
    unfold staffedNames
    push_cast
    ring

end PlantManager.Solver

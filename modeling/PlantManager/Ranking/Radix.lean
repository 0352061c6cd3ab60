import PlantManager.Ranking.Sorting

/-! # Comparing several values through one number

A number made of a high part, scaled, and a low part that stays below the scale is
compared first by the high part and then by the low part
(`Ranking.lex_of_scaled_le`). Digits to a radix are compared
lexicographically (`Ranking.radixValue_le_iff`).
-/

namespace PlantManager.Ranking

/-- A scaled high part decides before a low part that varies by less than the scale. -/
theorem lex_of_scaled_le {scale high low otherHigh otherLow : ℤ} (varies : otherLow - low < scale)
    (positive : 0 < scale) (below : high * scale + low ≤ otherHigh * scale + otherLow) :
    toLex (high, low) ≤ toLex (otherHigh, otherLow) := by
  rw [Prod.Lex.toLex_le_toLex]
  have atMost : high ≤ otherHigh := by
    by_contra above
    have step : otherHigh + 1 ≤ high := by omega
    have scaled : (otherHigh + 1) * scale ≤ high * scale :=
      mul_le_mul_of_nonneg_right step positive.le
    linarith [add_one_mul otherHigh scale]
  rcases atMost.lt_or_eq with smaller | rfl
  · exact Or.inl smaller
  · exact Or.inr ⟨rfl, by linarith⟩

/-- Three values scaled one above the other are compared in that order. -/
theorem lex_of_doubly_scaled_le {scale bound : ℤ} {high otherHigh : ℕ}
    {middle low otherMiddle otherLow : ℤ}
    (lowVaries : otherLow - low < scale) (scalePositive : 0 < scale)
    (middleVaries : |otherMiddle - middle| < bound)
    (below : (high * bound + middle) * scale + low ≤
      (otherHigh * bound + otherMiddle) * scale + otherLow) :
    toLex (high, toLex (middle, low)) ≤ toLex (otherHigh, toLex (otherMiddle, otherLow)) := by
  have boundPositive : 0 < bound := (abs_nonneg _).trans_lt middleVaries
  obtain ⟨back, forth⟩ := abs_lt.mp middleVaries
  have outer := lex_of_scaled_le lowVaries scalePositive below
  simp only [Prod.Lex.toLex_le_toLex] at outer ⊢
  rcases outer with smaller | ⟨same, lows⟩
  · have inner := lex_of_scaled_le forth boundPositive smaller.le
    simp only [Prod.Lex.toLex_le_toLex] at inner
    rcases inner with fewer | ⟨equal, middles⟩
    · exact Or.inl (by exact_mod_cast fewer)
    · refine Or.inr ⟨by exact_mod_cast equal, Or.inl ?_⟩
      rw [equal] at smaller
      linarith
  · have inner := lex_of_scaled_le forth boundPositive same.le
    have outward := lex_of_scaled_le (by linarith) boundPositive same.ge
    obtain ⟨highs, middles⟩ := Prod.mk.inj (toLex.injective (le_antisymm inner outward))
    exact Or.inr ⟨by exact_mod_cast highs, Or.inr ⟨middles, lows⟩⟩

/-- The number with these digits, the first being the most significant. -/
def radixValue (radix : ℕ) : List ℕ → ℕ
  | [] => 0
  | digit :: rest => digit * radix ^ rest.length + radixValue radix rest

theorem radixValue_lt {radix : ℕ} {digits : List ℕ} (bounded : ∀ digit ∈ digits, digit < radix) :
    radixValue radix digits < radix ^ digits.length := by
  induction digits with
  | nil => simp [radixValue]
  | cons digit rest ih =>
      have tail := ih fun other member => bounded other (List.mem_cons_of_mem _ member)
      have head : digit + 1 ≤ radix := bounded digit List.mem_cons_self
      calc radixValue radix (digit :: rest)
          < digit * radix ^ rest.length + radix ^ rest.length := Nat.add_lt_add_left tail _
        _ = (digit + 1) * radix ^ rest.length := by ring
        _ ≤ radix * radix ^ rest.length := Nat.mul_le_mul_right _ head
        _ = radix ^ (digit :: rest).length := by rw [List.length_cons, pow_succ, Nat.mul_comm]

/-- Digits are compared lexicographically. -/
theorem radixValue_le_iff {radix : ℕ} {first second : List ℕ}
    (sameLength : first.length = second.length) (firstBounded : ∀ digit ∈ first, digit < radix)
    (secondBounded : ∀ digit ∈ second, digit < radix) :
    radixValue radix first ≤ radixValue radix second ↔ first ≤ second := by
  induction first generalizing second with
  | nil =>
      obtain rfl := List.length_eq_zero_iff.mp sameLength.symm
      exact ⟨fun _ => le_rfl, fun _ => le_rfl⟩
  | cons digit rest ih =>
      cases second with
      | nil => simp at sameLength
      | cons other others =>
          have lengths : rest.length = others.length := Nat.succ.inj sameLength
          have firstTail : ∀ digit ∈ rest, digit < radix :=
            fun digit member => firstBounded digit (List.mem_cons_of_mem _ member)
          have secondTail : ∀ digit ∈ others, digit < radix :=
            fun digit member => secondBounded digit (List.mem_cons_of_mem _ member)
          have firstLow := radixValue_lt firstTail
          have secondLow := radixValue_lt secondTail
          rw [cons_le_cons_iff, ← ih lengths firstTail secondTail, radixValue, radixValue]
          rw [lengths] at firstLow ⊢
          rcases lt_trichotomy digit other with smaller | rfl | larger
          · have step : (digit + 1) * radix ^ others.length ≤ other * radix ^ others.length :=
              Nat.mul_le_mul_right _ smaller
            rw [Nat.add_one_mul] at step
            exact ⟨fun _ => Or.inl smaller, fun _ => by omega⟩
          · simp
          · have step : (other + 1) * radix ^ others.length ≤ digit * radix ^ others.length :=
              Nat.mul_le_mul_right _ larger
            rw [Nat.add_one_mul] at step
            constructor
            · intro below; omega
            · rintro (smaller | ⟨same, -⟩) <;> omega

end PlantManager.Ranking

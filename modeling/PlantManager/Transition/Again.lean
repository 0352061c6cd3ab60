import Mathlib

/-! # Doing items again

Items are done one after another. What doing an item establishes, and what doing the items apart
from it keeps, holds of every item in the end (`Transition.Does.forall_holds`). If an
item of which it holds can be done without an effect, then all of them can be done again without one
(`Transition.Does.again`).
-/

namespace PlantManager.Transition

variable {α σ : Type*} {does : α → σ → σ → Prop} {holds : α → σ → Prop} {apart : α → α → Prop}
  {items : List α} {before after : σ}

/-- The items are done in their order. -/
def Does (does : α → σ → σ → Prop) : List α → σ → σ → Prop
  | [], before, after => before = after
  | item :: rest, before, after => ∃ next, does item before next ∧ Does does rest next after

theorem does_foldl (change : σ → α → σ) (items : List α) (before : σ) :
    Does (fun item state next => change state item = next) items before
      (items.foldl change before) := by
  induction items generalizing before with
  | nil => rfl
  | cons item rest ih => exact ⟨_, rfl, ih _⟩

theorem Does.keeps {kept : σ → Prop} (done : Does does items before after)
    (step : ∀ item ∈ items, ∀ state next, does item state next → kept state → kept next)
    (initially : kept before) : kept after := by
  induction items generalizing before with
  | nil =>
      subst done
      exact initially
  | cons item rest ih =>
      obtain ⟨next, first, later⟩ := done
      obtain ⟨here, there⟩ := List.forall_mem_cons.mp step
      exact ih later there (here before next first initially)

theorem Does.forall_holds (done : Does does items before after)
    (own : ∀ item state next, does item state next → holds item next)
    (others : ∀ first second state next, apart first second → holds first state →
      does second state next → holds first next)
    (distinct : items.Pairwise apart) : ∀ item ∈ items, holds item after := by
  induction items generalizing before with
  | nil => exact List.forall_mem_nil _
  | cons item rest ih =>
      obtain ⟨next, first, later⟩ := done
      obtain ⟨away, distinct⟩ := List.pairwise_cons.mp distinct
      have kept : ∀ other ∈ rest, ∀ state final, does other state final →
          holds item state → holds item final := fun other member state final step here =>
        others item other state final (away other member) here step
      refine List.forall_mem_cons.mpr ⟨?_, ih later distinct⟩
      exact later.keeps kept (own item before next first)

theorem Does.again (still : ∀ item ∈ items, does item after after) :
    Does does items after after := by
  induction items with
  | nil => rfl
  | cons item rest ih =>
      obtain ⟨here, there⟩ := List.forall_mem_cons.mp still
      exact ⟨after, here, ih there⟩

end PlantManager.Transition

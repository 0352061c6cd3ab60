import Mathlib

/-! # Marking what a change can be seen in

A state is seen at moments, which fall into slots. A change of the state marks slots; the marks
are enough if they include the slot of every moment that is seen differently afterwards
(`Transition.Marks`). Changes in a row mark what any of them marks.
-/

namespace PlantManager.Transition

variable {σ τ ω δ α : Type*}

/-- Every moment at which two states are seen differently is in a marked slot. -/
def Marks (view : σ → τ → ω) (slot : τ → δ) (before after : σ) (marked : Finset δ) : Prop :=
  ∀ moment, view before moment ≠ view after moment → slot moment ∈ marked

variable {view : σ → τ → ω} {slot : τ → δ} {before middle after : σ} {marked more : Finset δ}

theorem Marks.of_same (same : ∀ moment, view before moment = view after moment) :
    Marks view slot before after marked :=
  fun moment differs => absurd (same moment) differs

theorem Marks.mono (marks : Marks view slot before after marked) (subset : marked ⊆ more) :
    Marks view slot before after more :=
  fun moment differs => subset (marks moment differs)

theorem Marks.trans (first : Marks view slot before middle marked)
    (second : Marks view slot middle after marked) : Marks view slot before after marked := by
  intro moment differs
  by_cases same : view before moment = view middle moment
  · apply second moment
    rwa [← same]
  · exact first moment same

/-- A fold that collects the slots it marks marks enough. -/
theorem Marks.foldl {step : σ × Finset δ → α → σ × Finset δ} {items : List α}
    (grows : ∀ current item, current.2 ⊆ (step current item).2)
    (each : ∀ current, ∀ item ∈ items, Marks view slot current.1 (step current item).1
      (step current item).2) (start : σ × Finset δ) :
    start.2 ⊆ (items.foldl step start).2 ∧
      Marks view slot start.1 (items.foldl step start).1 (items.foldl step start).2 := by
  induction items generalizing start with
  | nil => exact ⟨fun _ => id, .of_same fun _ => rfl⟩
  | cons item rest ih =>
      have later := fun current other member => each current other (List.mem_cons_of_mem _ member)
      obtain ⟨kept, marks⟩ := ih later (step start item)
      refine ⟨(grows start item).trans kept, ?_⟩
      exact ((each start item List.mem_cons_self).mono kept).trans marks

end PlantManager.Transition

import PlantManager.Saturday.Commitments
import PlantManager.Saturday.CoverageDecided

/-! # A round keeps its coverage

Whatever operations come, the commitments of a round have a coverage, from which the places that
are left are counted (`Saturday.coverage_kept`).
-/

namespace PlantManager.Saturday

open Transition

variable {H : Type} {plant : Plant}

theorem inv_reachable {now : ℤ} {schedule : Option (Staffing.Stored H)} {state : State H}
    (reachable : Reachable (State.initial now schedule) (step plant) (fun _ _ => True) state) :
    Inv plant state.tables := by
  refine reachable.invariant ?_ fun _ _ _ inv _ taken => inv_step inv taken
  exact {
    new := fun _ _ => rfl
    placeable := ⟨fun _ => (0, 0), List.forall_mem_nil _, List.forall_mem_nil _⟩
    eligible := fun _ _ committed => by cases committed.1
    windows := fun _ begun => by cases begun }

theorem nodup_bundleOpenings (plant : Plant) (tables : Tables H) :
    ((bundleOpenings plant tables).map Opening.wcId).Nodup := by
  rw [bundleOpenings, List.map_map]
  exact List.pairwise_map.mpr ((tables.openings.sorted.filter _).imp fun below => below.ne)

theorem covers_of_inv {tables : Tables H} (inv : Inv plant tables) :
    ∃ coverage, matchCommitments (bundleOpenings plant tables)
        ((committedResponses tables).map commitmentOf) = some coverage ∧
      Covers (bundleOpenings plant tables) ((committedResponses tables).map commitmentOf)
        coverage := by
  have once : (((committedResponses tables).map commitmentOf).map Commitment.personId).Nodup := by
    rw [List.map_map]
    exact nodup_committedResponses tables
  obtain ⟨coverage, covered⟩ := (matchCommitments_isSome_iff _ _).mpr ⟨once, inv.placeable⟩
  exact ⟨coverage, covered, covers_of_matchCommitments (nodup_bundleOpenings plant tables) covered⟩

end PlantManager.Saturday

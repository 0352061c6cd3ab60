import PlantManager.Attendance.Projection

/-! # The run over the pieces

`Attendance.Projection.projected_of_foldlM`: a run over the pieces that does
not raise adds, for each piece with active rows, one span that is classified from them.
-/

namespace PlantManager.Attendance.Projection

open Checks Mapping Ranking Timeline

variable {context : ProjectContext} {covered : List SourceRow} {states : List (ℤ × DayState)}

/-- The only work center of the active rows, if there is just one. -/
def soleWorkCenter (active : List SourceRow) : Option ℤ :=
  match distinctWorkCenters active with
  | [workCenterId] => some workCenterId
  | _ => none

/-- How the active rows of a piece are classified. -/
inductive Classifies (context : ProjectContext) (states : List (ℤ × DayState))
    (projected : List LocationSpan) (first : SourceRow) (active : List SourceRow) (left : ℤ)
    (label : Location) : Prop
  | stale (stale : StaleActive context active left) (status : label.status = .staleOpenLocation)
      (app : label.appWorkCenterName =
        carriedAppWorkCenter projected first active left (soleWorkCenter active))
  | conflicting (fresh : ¬StaleActive context active left)
      (several : 1 < (distinctWorkCenters active).length)
      (status : label.status = .conflictingLocation) (app : label.appWorkCenterName = none)
  | unlocated (fresh : ¬StaleActive context active left) (nowhere : distinctWorkCenters active = [])
      (state : DayState) (found : states.lookup (context.calendar.dayOf left) = some state)
      (status : label.status = noLocationStatus context active state left)
      (app : label.appWorkCenterName = none)
  | unmapped (fresh : ¬StaleActive context active left) (workCenterId : ℤ)
      (only : distinctWorkCenters active = [workCenterId])
      (unknown : context.mapWorkCenter workCenterId = none)
      (status : label.status = .unmappedLocation) (app : label.appWorkCenterName = none)
  | valid (fresh : ¬StaleActive context active left) (workCenterId : ℤ)
      (only : distinctWorkCenters active = [workCenterId]) (name : String)
      (known : context.mapWorkCenter workCenterId = some name)
      (status : label.status = .valid) (app : label.appWorkCenterName = some name)

/-- What the label of a piece says. -/
structure Labels (context : ProjectContext) (states : List (ℤ × DayState))
    (projected : List LocationSpan) (first : SourceRow) (active : List SourceRow) (left : ℤ)
    (label : Location) : Prop where
  employee : label.employeeOdooId = first.employeeId
  attendanceIds : label.attendanceIds = attendanceIdsOf active
  workCenter : label.odooWorkCenterId = soleWorkCenter active
  classified : Classifies context states projected first active left label

/-- Spans that a run over some pieces has added. -/
inductive Projected (context : ProjectContext) (covered : List SourceRow)
    (states : List (ℤ × DayState)) : List (ℤ × ℤ) → List LocationSpan → Prop
  | none : Projected context covered states [] []
  | skipped {pieces : List (ℤ × ℤ)} {spans : List LocationSpan} {piece : ℤ × ℤ}
      (before : Projected context covered states pieces spans)
      (idle : activeOn context covered piece = []) :
      Projected context covered states (pieces ++ [piece]) spans
  | added {pieces : List (ℤ × ℤ)} {spans : List LocationSpan} {piece : ℤ × ℤ} {first : SourceRow}
      {others : List SourceRow} {label : Location}
      (before : Projected context covered states pieces spans)
      (active : activeOn context covered piece = first :: others)
      (labels : Labels context states spans first (first :: others) piece.1 label) :
      Projected context covered states (pieces ++ [piece]) (spans ++ [⟨piece.1, piece.2, label⟩])

theorem soleWorkCenter_eq (active : List SourceRow) :
    (if (distinctWorkCenters active).length = 1 then (distinctWorkCenters active).head? else none) =
      soleWorkCenter active := by
  rw [soleWorkCenter]
  match distinctWorkCenters active with
  | [] => rfl
  | [workCenterId] => rfl
  | first :: second :: rest => simp

/-- One piece that does not raise. -/
theorem projected_projectPiece {done : List (ℤ × ℤ)} {projected next : List LocationSpan}
    {piece : ℤ × ℤ} (before : Projected context covered states done projected)
    (returned : projectPiece context covered states projected piece = .ok next) :
    Projected context covered states (done ++ [piece]) next := by
  rw [projectPiece] at returned
  split at returned
  · rename_i idle
    exact Except.ok.inj returned ▸ .skipped before idle
  · rename_i first others active
    simp only [soleWorkCenter_eq] at returned
    split at returned
    · rename_i stale
      exact Except.ok.inj returned ▸ .added before active ⟨rfl, rfl, rfl, .stale stale rfl rfl⟩
    · rename_i fresh
      split at returned
      · rename_i nowhere
        have workCenter : soleWorkCenter (first :: others) = none := by rw [soleWorkCenter, nowhere]
        split at returned
        · cases returned
        · rename_i state found
          exact Except.ok.inj returned ▸ .added before active
            ⟨rfl, rfl, workCenter.symm, .unlocated fresh nowhere state found rfl rfl⟩
      · rename_i workCenterId only
        have workCenter : soleWorkCenter (first :: others) = some workCenterId := by
          rw [soleWorkCenter, only]
        split at returned
        · rename_i unknown
          exact Except.ok.inj returned ▸ .added before active
            ⟨rfl, rfl, workCenter.symm, .unmapped fresh workCenterId only unknown rfl rfl⟩
        · rename_i name known
          obtain ⟨target, _, returned⟩ := bind_eq_ok.mp returned
          obtain ⟨repair, _, returned⟩ := bind_eq_ok.mp returned
          exact Except.ok.inj returned ▸ .added before active
            ⟨rfl, rfl, workCenter.symm, .valid fresh workCenterId only name known rfl rfl⟩
      · rename_i notNone notOne
        have several : 1 < (distinctWorkCenters (first :: others)).length := by
          match distinct : distinctWorkCenters (first :: others) with
          | [] => exact absurd distinct notNone
          | [workCenterId] => exact absurd distinct (notOne workCenterId)
          | _ :: _ :: _ => simp
        have workCenter : soleWorkCenter (first :: others) = none := by
          rw [soleWorkCenter]
          split
          · rename_i workCenterId only
            exact absurd only (notOne workCenterId)
          · rfl
        exact Except.ok.inj returned ▸ .added before active
          ⟨rfl, rfl, workCenter.symm, .conflicting fresh several rfl rfl⟩

/-- A run over pieces that does not raise. -/
theorem projected_of_foldlM {done pieces : List (ℤ × ℤ)} {projected final : List LocationSpan}
    (before : Projected context covered states done projected)
    (returned : pieces.foldlM (projectPiece context covered states) projected = .ok final) :
    Projected context covered states (done ++ pieces) final := by
  induction pieces generalizing done projected with
  | nil =>
      obtain rfl := Except.ok.inj returned
      rwa [List.append_nil]
  | cons piece rest ih =>
      obtain ⟨next, one, later⟩ := bind_eq_ok.mp returned
      have after := ih (projected_projectPiece before one) later
      rwa [List.append_assoc, List.singleton_append] at after

namespace Projected

variable {pieces : List (ℤ × ℤ)} {spans : List LocationSpan}

section

variable (projected : Projected context covered states pieces spans)
include projected

/-- Every span stands on a piece, with the spans of the pieces before it. -/
theorem exists_piece {span : LocationSpan} (member : span ∈ spans) :
    ∃ piece ∈ pieces, ∃ earlier first others,
      activeOn context covered piece = first :: others ∧ span.start = piece.1 ∧
        span.stop = piece.2 ∧
        Labels context states earlier first (first :: others) piece.1 span.label := by
  induction projected with
  | none => cases member
  | skipped _ _ ih =>
      obtain ⟨piece, inPieces, found⟩ := ih member
      exact ⟨piece, List.mem_append_left _ inPieces, found⟩
  | added _ active labels ih =>
      rcases List.mem_append.mp member with earlier | isLast
      · obtain ⟨piece, inPieces, found⟩ := ih earlier
        exact ⟨piece, List.mem_append_left _ inPieces, found⟩
      · obtain rfl := List.mem_singleton.mp isLast
        exact ⟨_, List.mem_append_right _ (List.mem_singleton_self _), _, _, _, active, rfl, rfl,
          labels⟩

/-- Every piece with active rows has its span. -/
theorem exists_span {piece : ℤ × ℤ} (member : piece ∈ pieces)
    (active : activeOn context covered piece ≠ []) :
    ∃ span ∈ spans, span.start = piece.1 ∧ span.stop = piece.2 := by
  induction projected with
  | none => cases member
  | skipped _ idle ih =>
      rcases List.mem_append.mp member with earlier | isLast
      · exact ih earlier
      · obtain rfl := List.mem_singleton.mp isLast
        exact absurd idle active
  | added _ _ _ ih =>
      rcases List.mem_append.mp member with earlier | isLast
      · obtain ⟨span, inSpans, found⟩ := ih earlier
        exact ⟨span, List.mem_append_left _ inSpans, found⟩
      · obtain rfl := List.mem_singleton.mp isLast
        exact ⟨_, List.mem_append_right _ (List.mem_singleton_self _), rfl, rfl⟩

/-- On pieces that follow each other the spans are in sequence. -/
theorem inSequence (positive : ∀ piece ∈ pieces, piece.1 < piece.2)
    (follow : pieces.Pairwise fun first second => first.2 ≤ second.1) : InSequence spans := by
  induction projected with
  | none => exact ⟨fun _ member => absurd member List.not_mem_nil, List.Pairwise.nil⟩
  | skipped _ _ ih =>
      exact ih (fun piece member => positive piece (List.mem_append_left _ member))
        (List.pairwise_append.mp follow).1
  | @added done earlier piece first others label before active labels ih =>
      have sequence := ih (fun piece member => positive piece (List.mem_append_left _ member))
        (List.pairwise_append.mp follow).1
      refine sequence.append_singleton
        (positive piece (List.mem_append_right _ (List.mem_singleton_self _))) ?_
      intro span member
      obtain ⟨other, inDone, _, _, _, _, _, stop, _⟩ := before.exists_piece member
      exact stop.trans_le ((List.pairwise_append.mp follow).2.2 other inDone piece
        (List.mem_singleton_self _))

end

end Projected

end PlantManager.Attendance.Projection

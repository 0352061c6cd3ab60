import PlantManager.Attendance.ProjectionReference

/-! # The app work center of stale spans

A stale span carries the app work center of the span before it. Instant by instant it is
the mapped work center if the same rows were present, without a break, since an instant at
which none of them was stale
(`Attendance.Projection.carriesAt_projectEmployee`).
-/

namespace PlantManager.Attendance.Projection

open Checks Mapping Ranking Timeline

variable {context : ProjectContext} {rows : List SourceRow} {states : List (ℤ × DayState)}

/-- Whether the same rows were present since an instant at which none of them was stale. -/
def FreshBefore (context : ProjectContext) (rows : List SourceRow) (moment : ℤ) : Prop :=
  ∃ earlier < moment, ¬StaleActive context (presentAt context rows moment) earlier ∧
    ∀ between, earlier ≤ between → between ≤ moment →
      presentAt context rows between = presentAt context rows moment

/-- The app work center that a stale instant carries. -/
structure CarriesAt (context : ProjectContext) (rows : List SourceRow) (moment : ℤ)
    (appWorkCenterName : Option String) : Prop where
  kept : FreshBefore context rows moment →
    appWorkCenterName = (soleWorkCenter (presentAt context rows moment)).bind context.mapWorkCenter
  dropped : ¬FreshBefore context rows moment → appWorkCenterName = none

/-! ## Rows and their ids -/

theorem presentAt_eq_of_mem_iff {moment other : ℤ}
    (same : ∀ source, source ∈ presentAt context rows moment ↔
      source ∈ presentAt context rows other) :
    presentAt context rows moment = presentAt context rows other := by
  refine List.filter_congr fun source member => ?_
  have both := same source
  rw [mem_presentAt, mem_presentAt, and_iff_right member, and_iff_right member] at both
  exact decide_eq_decide.mpr both

/-- Rows with distinct ids are told apart by them. -/
theorem presentAt_eq_of_ids_eq (distinct : (rows.map SourceRow.attendanceId).Nodup) {moment other : ℤ}
    (same : attendanceIdsOf (presentAt context rows moment) =
      attendanceIdsOf (presentAt context rows other)) :
    presentAt context rows moment = presentAt context rows other := by
  have perm : ((presentAt context rows moment).map SourceRow.attendanceId).Perm
      ((presentAt context rows other).map SourceRow.attendanceId) :=
    (sortKeys_perm _).symm.trans ((List.Perm.of_eq same).trans (sortKeys_perm _))
  have inside {one another : ℤ} {source : SourceRow}
      (perm : ((presentAt context rows one).map SourceRow.attendanceId).Perm
        ((presentAt context rows another).map SourceRow.attendanceId))
      (present : source ∈ presentAt context rows one) : source ∈ presentAt context rows another := by
    obtain ⟨twin, isPresent, sameId⟩ :=
      List.mem_map.mp (perm.mem_iff.mp (List.mem_map_of_mem present))
    have equal := List.inj_on_of_nodup_map distinct (mem_presentAt.mp isPresent).1
      (mem_presentAt.mp present).1 sameId
    exact equal ▸ isPresent
  exact presentAt_eq_of_mem_iff fun source => ⟨inside perm, inside perm.symm⟩

/-! ## Staleness -/

variable {active : List SourceRow}

/-- Rows stay stale. -/
theorem StaleActive.mono {moment later : ℤ} (stale : StaleActive context active moment)
    (before : moment ≤ later) : StaleActive context active later := by
  obtain ⟨source, isStale, found, isOpen, reached⟩ := stale
  exact ⟨source, isStale, found, isOpen, reached.trans before⟩

theorem staleActive_iff_statusAt {moment : ℤ} :
    StaleActive context (presentAt context rows moment) moment ↔
      statusAt context rows moment = .staleOpenLocation := by
  constructor
  · exact fun stale => by rw [statusAt, if_pos stale]
  · intro status
    by_contra fresh
    rw [statusAt, if_neg fresh] at status
    split_ifs at status

/-- A fresh instant without a mapped work center is not valid. -/
theorem bind_mapWorkCenter_eq_none {moment : ℤ}
    (notStale : statusAt context rows moment ≠ .staleOpenLocation)
    (notValid : statusAt context rows moment ≠ .valid) :
    (soleWorkCenter (presentAt context rows moment)).bind context.mapWorkCenter = none := by
  have fresh := mt staleActive_iff_statusAt.mp notStale
  rw [soleWorkCenter]
  split
  · rename_i workCenterId only
    by_contra known
    exact notValid ((statusAt_of_only fresh only).trans (if_neg known))
  · rfl

/-- The name of a valid instant. -/
theorem mappedWorkCenterAt_of_valid {moment : ℤ} (valid : statusAt context rows moment = .valid) :
    mappedWorkCenterAt context rows moment =
      (soleWorkCenter (presentAt context rows moment)).bind context.mapWorkCenter := by
  rw [mappedWorkCenterAt, if_pos valid]

theorem noLocationStatus_ne_stale {left : ℤ} (state : DayState) :
    noLocationStatus context active state left ≠ .staleOpenLocation := by
  rw [noLocationStatus]
  split
  · rintro ⟨⟩
  · split <;> rintro ⟨⟩

theorem classifies_stale {projected : List LocationSpan} {first : SourceRow} {left : ℤ}
    {label : Location} (classified : Classifies context states projected first active left label)
    (isStale : label.status = .staleOpenLocation) :
    StaleActive context active left ∧ label.appWorkCenterName =
      carriedAppWorkCenter projected first active left (soleWorkCenter active) := by
  cases classified with
  | stale stale _ app => exact ⟨stale, app⟩
  | conflicting _ _ status _ | unmapped _ _ _ _ status _
  | valid _ _ _ _ _ status _ => cases status.symm.trans isStale
  | unlocated _ _ state _ status _ =>
      exact absurd (status.symm.trans isStale) (noLocationStatus_ne_stale state)

/-! ## The previous span -/

section Previous

variable {done : List (ℤ × ℤ)} {spans : List LocationSpan} {piece : ℤ × ℤ} {moment : ℤ}
  (ran : Projected context (coveredRows context rows) states done spans)
  (early : done ++ [piece] <+:
    pieces (sortedBoundaries (boundaries context (coveredRows context rows) states)))

include ran early

omit ran in
theorem mem_pieces_of_isPrefix {other : ℤ × ℤ} (member : other ∈ done ++ [piece]) : other ∈
    pieces (sortedBoundaries (boundaries context (coveredRows context rows) states)) :=
  early.subset member

/-- Just before a piece that follows others of the employee the last span stands. -/
theorem exists_previous (present : presentAt context rows (piece.1 - 1) ≠ []) :
    ∃ previous, spans.getLast? = some previous ∧ previous.stop = piece.1 := by
  obtain ⟨before, inPieces, started, lasts⟩ := @exists_piece_of_present context rows states _ present
  have isPiece : piece ∈ done ++ [piece] := List.mem_append_right _ List.mem_cons_self
  have positive := (lt_and_apart_of_mem_pieces (pairwise_sortedBoundaries _)
    (mem_pieces_of_isPrefix early isPiece)).1
  have follow := pairwise_pieces (pairwise_sortedBoundaries
    (boundaries context (coveredRows context rows) states))
  obtain ⟨rest, split⟩ := early
  rw [← split] at inPieces follow
  obtain ⟨doneFollow, _, restAfter⟩ := List.pairwise_append.mp follow
  obtain ⟨_, _, doneBefore⟩ := List.pairwise_append.mp doneFollow
  have isDone : before ∈ done := by
    rcases List.mem_append.mp inPieces with inFront | later
    · rcases List.mem_append.mp inFront with isDone | isLast
      · exact isDone
      · rw [List.mem_singleton.mp isLast] at started
        omega
    · have after := restAfter piece isPiece before later
      omega
  have stops := doneBefore before isDone piece List.mem_cons_self
  have around := around_of_mem_pieces (split ▸ inPieces) started lasts
  obtain ⟨span, member, _, stop⟩ := ran.exists_span isDone (around.activeOn_eq ▸ present)
  have touches : span.stop = piece.1 := by omega
  have sequence : InSequence spans := ran.inSequence
    (fun other isOther => (lt_and_apart_of_mem_pieces (pairwise_sortedBoundaries _)
      (split ▸ List.mem_append_left _ (List.mem_append_left _ isOther))).1)
    (List.pairwise_append.mp doneFollow).1
  refine ⟨span, sequence.getLast?_eq member fun other isOther => ?_, touches⟩
  obtain ⟨standsOn, inDone, _, _, _, _, _, otherStop, _⟩ := ran.exists_piece isOther
  rw [otherStop, touches]
  exact doneBefore standsOn inDone piece List.mem_cons_self

/-- The last span says what the reference says just before the piece. -/
theorem saysAt_previous (described : dayStates context (coveredRows context rows) = .ok states)
    {previous : LocationSpan} (last : spans.getLast? = some previous)
    (stops : previous.stop = piece.1) :
    previous.Covers (piece.1 - 1) ∧ SaysAt context rows (piece.1 - 1) previous.label := by
  have member := List.mem_of_getLast? last
  obtain ⟨standsOn, inDone, _, _, _, active, start, stop, labels⟩ := ran.exists_piece member
  have inPieces := mem_pieces_of_isPrefix early (List.mem_append_left [piece] inDone)
  have positive := (lt_and_apart_of_mem_pieces (pairwise_sortedBoundaries _) inPieces).1
  have started : standsOn.1 ≤ piece.1 - 1 := by omega
  have lasts : piece.1 - 1 < standsOn.2 := by omega
  exact ⟨⟨start.trans_le started, lasts.trans_eq stop.symm⟩,
    saysAt_of_labels described (around_of_mem_pieces inPieces started lasts) active labels⟩

omit ran in
theorem presentAt_eq_in_piece {one other : ℤ} (oneStarted : piece.1 ≤ one) (oneLasts : one < piece.2)
    (otherStarted : piece.1 ≤ other) (otherLasts : other < piece.2) :
    presentAt context rows one = presentAt context rows other := by
  have inPieces := mem_pieces_of_isPrefix early (List.mem_append_right done List.mem_cons_self)
  rw [← (around_of_mem_pieces inPieces oneStarted oneLasts).activeOn_eq,
    (around_of_mem_pieces inPieces otherStarted otherLasts).activeOn_eq]

end Previous

/-! ## The carried name -/

section Carry

variable {done : List (ℤ × ℤ)} {spans : List LocationSpan} {piece : ℤ × ℤ} {moment : ℤ}

/-- A fresh instant before a stale piece leads back over the start of the piece. -/
theorem presentAt_before_eq (started : piece.1 ≤ moment)
    (stale : StaleActive context (presentAt context rows moment) piece.1)
    (freshBefore : FreshBefore context rows moment) :
    presentAt context rows (piece.1 - 1) = presentAt context rows moment := by
  obtain ⟨earlier, _, fresh, constant⟩ := freshBefore
  have before : earlier < piece.1 := by
    by_contra reached
    exact fresh (stale.mono (not_lt.mp reached))
  exact constant _ (by omega) (by omega)

/-- Before a stale piece with the same rows there is a fresh instant if there is one before its
start, or if the start is the first stale instant. -/
theorem freshBefore_iff (early : done ++ [piece] <+:
    pieces (sortedBoundaries (boundaries context (coveredRows context rows) states)))
    (started : piece.1 ≤ moment) (lasts : moment < piece.2)
    (stale : StaleActive context (presentAt context rows moment) piece.1)
    (same : presentAt context rows (piece.1 - 1) = presentAt context rows moment) :
    FreshBefore context rows moment ↔
      ¬StaleActive context (presentAt context rows (piece.1 - 1)) (piece.1 - 1) ∨
        FreshBefore context rows (piece.1 - 1) := by
  constructor
  · rintro ⟨earlier, _, fresh, constant⟩
    have before : earlier < piece.1 := by
      by_contra reached
      exact fresh (stale.mono (not_lt.mp reached))
    by_cases adjacent : earlier = piece.1 - 1
    · exact Or.inl (same ▸ adjacent ▸ fresh)
    · refine Or.inr ⟨earlier, by omega, same ▸ fresh, fun between after upTo => ?_⟩
      rw [constant between after (by omega), same]
  · have inside {between : ℤ} (after : piece.1 - 1 ≤ between) (upTo : between ≤ moment) :
        presentAt context rows between = presentAt context rows moment := by
      by_cases first : between = piece.1 - 1
      · rw [first, same]
      · exact presentAt_eq_in_piece early (by omega) (by omega) started lasts
    rintro (fresh | ⟨earlier, before, fresh, constant⟩)
    · exact ⟨piece.1 - 1, by omega, same ▸ fresh, fun between => inside⟩
    · refine ⟨earlier, by omega, same ▸ fresh, fun between after upTo => ?_⟩
      by_cases inFront : between ≤ piece.1 - 1
      · rw [constant between after inFront, same]
      · exact inside (by omega) upTo

variable (distinct : (rows.map SourceRow.attendanceId).Nodup) {employeeId : ℤ}
  (own : ∀ source ∈ rows, source.employeeId = employeeId)
  (described : dayStates context (coveredRows context rows) = .ok states)

include distinct own described

/-- A stale piece carries the name of its instants, if the spans before it do. -/
theorem carriesAt_carriedAppWorkCenter
    (ran : Projected context (coveredRows context rows) states done spans)
    (early : done ++ [piece] <+:
      pieces (sortedBoundaries (boundaries context (coveredRows context rows) states)))
    (carried : ∀ span ∈ spans, span.label.status = .staleOpenLocation → ∀ moment,
      span.Covers moment → CarriesAt context rows moment span.label.appWorkCenterName)
    (started : piece.1 ≤ moment) (lasts : moment < piece.2) {first : SourceRow}
    {others : List SourceRow} (active : presentAt context rows moment = first :: others)
    (stale : StaleActive context (presentAt context rows moment) piece.1) :
    CarriesAt context rows moment (carriedAppWorkCenter spans first
      (presentAt context rows moment) piece.1 (soleWorkCenter (presentAt context rows moment))) := by
  have before := presentAt_before_eq started stale
  have nonempty : presentAt context rows moment ≠ [] := active ▸ List.cons_ne_nil first others
  have firstOwn : first.employeeId = employeeId :=
    own first (mem_presentAt.mp (active ▸ List.mem_cons_self)).1
  cases last : spans.getLast? with
  | none =>
      rw [carriedAppWorkCenter, last]
      refine ⟨fun fresh => ?_, fun _ => rfl⟩
      obtain ⟨previous, found, _⟩ := exists_previous ran early (before fresh ▸ nonempty)
      cases last.symm.trans found
  | some previous =>
      rw [carriedAppWorkCenter, last]
      dsimp only
      split
      · rename_i continues
        obtain ⟨_, stops, _, ids, kind⟩ := continues
        obtain ⟨covers, reading⟩ := saysAt_previous ran early described last stops
        have same := presentAt_eq_of_ids_eq distinct (reading.attendanceIds.symm.trans ids)
        have back := freshBefore_iff early started lasts stale same
        rcases kind with valid | staleBefore
        · have status := reading.status.symm.trans valid
          have name := reading.app (valid ▸ nofun)
          have fresh : FreshBefore context rows moment := back.mpr (Or.inl
            (mt staleActive_iff_statusAt.mp (status ▸ nofun)))
          refine ⟨fun _ => ?_, fun stays => absurd fresh stays⟩
          rw [name, mappedWorkCenterAt_of_valid status, same]
        · have status := reading.status.symm.trans staleBefore
          have earlier := carried previous (List.mem_of_getLast? last) staleBefore _ covers
          have same' : FreshBefore context rows moment ↔ FreshBefore context rows (piece.1 - 1) :=
            back.trans (or_iff_right (not_not.mpr (staleActive_iff_statusAt.mpr status)))
          exact ⟨fun fresh => (earlier.kept (same'.mp fresh)).trans (same ▸ rfl),
            fun stays => earlier.dropped (mt same'.mpr stays)⟩
      · rename_i breaks
        refine ⟨fun fresh => ?_, fun _ => rfl⟩
        have same := before fresh
        obtain ⟨other, found, stops⟩ := exists_previous ran early (same ▸ nonempty)
        obtain rfl := Option.some.inj (last.symm.trans found)
        obtain ⟨_, reading⟩ := saysAt_previous ran early described last stops
        obtain ⟨source, member, isOwn⟩ := reading.employee
        have kind : ¬(previous.label.status = .valid ∨ previous.label.status = .staleOpenLocation) :=
          fun kind => breaks ⟨isOwn.trans ((own source member).trans firstOwn.symm), stops,
            reading.workCenter.trans (same ▸ rfl), reading.attendanceIds.trans (same ▸ rfl), kind⟩
        rw [reading.status] at kind
        obtain ⟨notValid, notStale⟩ := not_or.mp kind
        exact (same ▸ bind_mapWorkCenter_eq_none notStale notValid).symm

/-- The stale spans of a run over the first pieces carry the names of their instants. -/
theorem carriesAt_of_projected
    (ran : Projected context (coveredRows context rows) states done spans)
    (early : done <+:
      pieces (sortedBoundaries (boundaries context (coveredRows context rows) states))) :
    ∀ span ∈ spans, span.label.status = .staleOpenLocation → ∀ moment, span.Covers moment →
      CarriesAt context rows moment span.label.appWorkCenterName := by
  induction ran with
  | none => exact fun _ member => absurd member List.not_mem_nil
  | skipped _ _ ih => exact ih ((List.prefix_append _ _).trans early)
  | @added done earlier piece first others label before active labels ih =>
      have carried := ih ((List.prefix_append _ _).trans early)
      intro span member isStale moment covers
      rcases List.mem_append.mp member with inFront | isLast
      · exact carried span inFront isStale moment covers
      · obtain rfl := List.mem_singleton.mp isLast
        have inPieces := mem_pieces_of_isPrefix early
          (List.mem_append_right done List.mem_cons_self)
        have isActive := (around_of_mem_pieces inPieces covers.1 covers.2).activeOn_eq.symm.trans active
        obtain ⟨stale, app⟩ := classifies_stale labels.classified isStale
        rw [← isActive] at stale app
        rw [app]
        exact carriesAt_carriedAppWorkCenter distinct own described before early carried covers.1
          covers.2 isActive stale

end Carry

/-- The stale spans of an employee carry the names of their instants. -/
theorem carriesAt_projectEmployee (distinct : (rows.map SourceRow.attendanceId).Nodup)
    {employeeId : ℤ} (own : ∀ source ∈ rows, source.employeeId = employeeId)
    {spans : List LocationSpan} (returned : projectEmployee context rows = .ok spans)
    {span : LocationSpan} (member : span ∈ spans) (isStale : span.label.status = .staleOpenLocation)
    {moment : ℤ} (covers : span.Covers moment) :
    CarriesAt context rows moment span.label.appWorkCenterName := by
  rw [projectEmployee] at returned
  by_cases uncovered : coveredRows context rows = []
  · rw [if_pos uncovered] at returned
    obtain rfl := Except.ok.inj returned
    cases member
  · rw [if_neg uncovered] at returned
    obtain ⟨states, described, returned⟩ := bind_eq_ok.mp returned
    obtain ⟨projected, folded, merged⟩ := bind_eq_ok.mp returned
    have ran := projected_of_foldlM .none folded
    obtain rfl := Except.ok.inj (raiseIf_bind_eq_ok.mp merged).2
    obtain ⟨original, isProjected, alsoCovers, sameLabel⟩ :=
      (labelAt_mergeAdjacent (inSequence_of_projected ran).positive).mp ⟨span, member, covers, rfl⟩
    rw [← sameLabel] at isStale ⊢
    exact carriesAt_of_projected distinct own described ran (List.prefix_refl _) original isProjected
      isStale moment alsoCovers

theorem nodup_of_foldlM_normalizeRow {raws before after : List SourceRow}
    (distinct : (before.map SourceRow.attendanceId).Nodup)
    (returned : raws.foldlM normalizeRow before = .ok after) :
    (after.map SourceRow.attendanceId).Nodup := by
  induction raws generalizing before with
  | nil => exact Except.ok.inj returned ▸ distinct
  | cons raw rest ih =>
      obtain ⟨next, one, later⟩ := bind_eq_ok.mp returned
      obtain ⟨source, _, checked⟩ := bind_eq_ok.mp one
      obtain ⟨new, consistent⟩ := raiseIf_bind_eq_ok.mp checked
      obtain rfl := Except.ok.inj (raiseIf_bind_eq_ok.mp consistent).2
      refine ih ?_ later
      rw [List.map_append, List.map_singleton, List.nodup_append_comm, List.singleton_append,
        List.nodup_cons]
      refine ⟨fun member => ?_, distinct⟩
      obtain ⟨prior, isPrior, same⟩ := List.mem_map.mp member
      exact new ⟨prior, isPrior, same⟩

/-- Rows that are projected have distinct ids. -/
theorem nodup_ids_of_projectRows {spans : List LocationSpan}
    (returned : projectRows context rows = .ok spans) : (rows.map SourceRow.attendanceId).Nodup := by
  obtain ⟨_, returned⟩ := raiseIf_bind_eq_ok.mp returned
  obtain ⟨_, returned⟩ := raiseIf_bind_eq_ok.mp returned
  obtain ⟨normalized, isNormalized, _⟩ := bind_eq_ok.mp returned
  obtain ⟨checked, folded, _⟩ := bind_eq_ok.mp isNormalized
  have empty : (([] : List SourceRow).map SourceRow.attendanceId).Nodup := List.nodup_nil
  have distinct := nodup_of_foldlM_normalizeRow empty folded
  rwa [eq_append_of_foldlM_normalizeRow folded, List.nil_append] at distinct

theorem freshBefore_iff_of_mem_iff {others : List SourceRow} {moment : ℤ}
    (same : ∀ instant source, source ∈ presentAt context rows instant ↔
      source ∈ presentAt context others instant) :
    FreshBefore context rows moment ↔ FreshBefore context others moment := by
  have stale (earlier : ℤ) : StaleActive context (presentAt context rows moment) earlier ↔
      StaleActive context (presentAt context others moment) earlier :=
    and_congr_right fun _ => exists_congr fun source => and_congr_left fun _ => same moment source
  refine exists_congr fun earlier => and_congr_right fun _ => and_congr (not_congr (stale earlier))
    (forall_congr' fun between => forall_congr' fun _ => forall_congr' fun _ => ?_)
  constructor
  · intro constant
    refine presentAt_eq_of_mem_iff fun source => ?_
    rw [← same, ← same, constant]
  · intro constant
    refine presentAt_eq_of_mem_iff fun source => ?_
    rw [same, same, constant]

/-- The stale spans of an employee carry the names of their instants, whatever the order of the
rows. -/
theorem carriesAt_of_projectRows {spans : List LocationSpan}
    (returned : projectRows context rows = .ok spans) {employeeId moment : ℤ} {span : LocationSpan}
    (member : span ∈ spansOf spans employeeId) (isStale : span.label.status = .staleOpenLocation)
    (covers : span.Covers moment) :
    CarriesAt context (rowsOf rows employeeId) moment span.label.appWorkCenterName := by
  obtain ⟨normalized, perm, own⟩ := projectEmployee_of_projectRows returned
  have ownPerm : (rowsOf normalized employeeId).Perm (rowsOf rows employeeId) := perm.filter _
  have distinct : ((rowsOf normalized employeeId).map SourceRow.attendanceId).Nodup :=
    ((perm.map _).nodup_iff.mpr (nodup_ids_of_projectRows returned)).sublist
      (List.filter_sublist.map _)
  have carries := carriesAt_projectEmployee distinct
    (fun source isOwn => of_decide_eq_true (List.mem_filter.mp isOwn).2) (own employeeId) member
    isStale covers
  have fresh := @freshBefore_iff_of_mem_iff context _ _ moment
    fun instant source => (ownPerm.filter _).mem_iff (a := source)
  have present : (presentAt context (rowsOf normalized employeeId) moment).Perm
      (presentAt context (rowsOf rows employeeId) moment) := ownPerm.filter _
  refine ⟨fun isFresh => ?_, fun notFresh => carries.dropped (mt fresh.mp notFresh)⟩
  rw [carries.kept (fresh.mpr isFresh), soleWorkCenter_eq_of_perm present]

end PlantManager.Attendance.Projection

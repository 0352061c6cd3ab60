import PlantManager.Ranking.Sorting

/-! # Labelled stretches of time

A timeline is a list of stretches with labels that follow each other. Merging neighbours
with equal labels keeps the label of every moment
(`Timeline.labelAt_mergeAdjacent`). The pieces between sorted boundaries
contain no boundary, and one of them covers each moment between the first boundary and the
last (`Timeline.exists_piece`).
-/

namespace PlantManager.Timeline

open Ranking

/-- A label on the moments from `start` up to `stop`. -/
structure Stretch (T L : Type*) where
  start : T
  stop : T
  label : L
deriving DecidableEq

section Stretches

variable {T L : Type*} [LinearOrder T]

def Stretch.Covers (stretch : Stretch T L) (moment : T) : Prop :=
  stretch.start ≤ moment ∧ moment < stretch.stop

instance (stretch : Stretch T L) (moment : T) : Decidable (stretch.Covers moment) :=
  inferInstanceAs (Decidable (_ ∧ _))

/-- Stretches of positive duration that follow each other. -/
structure InSequence (stretches : List (Stretch T L)) : Prop where
  positive : ∀ stretch ∈ stretches, stretch.start < stretch.stop
  follow : stretches.Pairwise fun first second => first.stop ≤ second.start

namespace InSequence

variable {stretches : List (Stretch T L)}

theorem tail {first : Stretch T L} (sequence : InSequence (first :: stretches)) :
    InSequence stretches where
  positive stretch member := sequence.positive stretch (List.mem_cons_of_mem _ member)
  follow := (List.pairwise_cons.mp sequence.follow).2

theorem stop_le {first stretch : Stretch T L} (sequence : InSequence (first :: stretches))
    (member : stretch ∈ stretches) : first.stop ≤ stretch.start :=
  (List.pairwise_cons.mp sequence.follow).1 stretch member

/-- Not even twice the same stretch covers a moment. -/
theorem length_filter_covers_le_one (sequence : InSequence stretches) (moment : T) :
    (stretches.filter fun stretch => stretch.Covers moment).length ≤ 1 := by
  induction stretches with
  | nil => exact Nat.zero_le 1
  | cons head rest ih =>
      by_cases covers : head.Covers moment
      · have others : rest.filter (fun stretch => stretch.Covers moment) = [] := by
          refine List.filter_eq_nil_iff.mpr fun stretch member found => ?_
          have also : stretch.Covers moment := of_decide_eq_true found
          exact absurd (covers.2.trans_le ((sequence.stop_le member).trans also.1)) (lt_irrefl _)
        rw [List.filter_cons, if_pos (decide_eq_true covers), others, List.length_singleton]
      · rw [List.filter_cons, if_neg (by simpa using covers)]
        exact ih sequence.tail

/-- Adding a stretch after the others. -/
theorem append_singleton (sequence : InSequence stretches) {last : Stretch T L}
    (positive : last.start < last.stop)
    (after : ∀ stretch ∈ stretches, stretch.stop ≤ last.start) :
    InSequence (stretches ++ [last]) where
  positive := by
    intro stretch member
    rcases List.mem_append.mp member with before | isLast
    · exact sequence.positive stretch before
    · exact List.mem_singleton.mp isLast ▸ positive
  follow := by
    refine List.pairwise_append.mpr ⟨sequence.follow, List.pairwise_singleton _ _, ?_⟩
    intro stretch before other isLast
    exact List.mem_singleton.mp isLast ▸ after stretch before

/-- The stretch that reaches the end of the timeline is its last. -/
theorem getLast?_eq (sequence : InSequence stretches) {last : Stretch T L} (member : last ∈ stretches)
    (reaches : ∀ stretch ∈ stretches, stretch.stop ≤ last.stop) :
    stretches.getLast? = some last := by
  rcases List.eq_nil_or_concat' stretches with rfl | ⟨before, final, rfl⟩
  · cases member
  · rw [List.getLast?_concat]
    rcases List.mem_append.mp member with earlier | isFinal
    · have isLast : final ∈ before ++ [final] := List.mem_append_right _ List.mem_cons_self
      have after := (List.pairwise_append.mp sequence.follow).2.2 last earlier final
        List.mem_cons_self
      exact absurd ((sequence.positive final isLast).trans_le (reaches final isLast))
        (not_lt.mpr after)
    · rw [List.mem_singleton.mp isFinal]

end InSequence

/-- Some stretch with the label covers the moment. -/
def LabelledAt (stretches : List (Stretch T L)) (moment : T) (label : L) : Prop :=
  ∃ stretch ∈ stretches, stretch.Covers moment ∧ stretch.label = label

variable [DecidableEq L]

/-- Extend a stretch over the ones that continue it with the same label, and go on. -/
def mergeFrom (current : Stretch T L) : List (Stretch T L) → List (Stretch T L)
  | [] => [current]
  | next :: rest =>
      if current.stop = next.start ∧ current.label = next.label then
        mergeFrom { current with stop := next.stop } rest
      else current :: mergeFrom next rest

def mergeAdjacent : List (Stretch T L) → List (Stretch T L)
  | [] => []
  | first :: rest => mergeFrom first rest

variable {rest : List (Stretch T L)}

omit [DecidableEq L] in
theorem inSequence_joined {current next : Stretch T L}
    (sequence : InSequence (current :: next :: rest)) :
    InSequence ({ current with stop := next.stop } :: rest) := by
  have touches := sequence.stop_le (List.mem_cons_self (a := next) (l := rest))
  have first := sequence.positive current List.mem_cons_self
  have second := sequence.positive next (List.mem_cons_of_mem _ List.mem_cons_self)
  refine ⟨fun stretch member => ?_, List.pairwise_cons.mpr
    ⟨fun stretch member => sequence.tail.stop_le member, sequence.tail.tail.follow⟩⟩
  rcases List.mem_cons.mp member with rfl | later
  · exact (first.trans_le touches).trans second
  · exact sequence.tail.tail.positive stretch later

theorem exists_start_eq_of_mem_mergeFrom {current stretch : Stretch T L}
    (member : stretch ∈ mergeFrom current rest) :
    stretch.start = current.start ∨ ∃ later ∈ rest, stretch.start = later.start := by
  induction rest generalizing current with
  | nil => exact Or.inl (List.mem_singleton.mp member ▸ rfl)
  | cons next rest ih =>
      rw [mergeFrom] at member
      split at member
      · exact (ih member).imp_right fun ⟨later, inRest, same⟩ =>
          ⟨later, List.mem_cons_of_mem _ inRest, same⟩
      · rcases List.mem_cons.mp member with rfl | after
        · exact Or.inl rfl
        · rcases ih after with same | ⟨later, inRest, same⟩
          · exact Or.inr ⟨next, List.mem_cons_self, same⟩
          · exact Or.inr ⟨later, List.mem_cons_of_mem _ inRest, same⟩

theorem inSequence_mergeFrom {current : Stretch T L} {rest : List (Stretch T L)}
    (sequence : InSequence (current :: rest)) : InSequence (mergeFrom current rest) := by
  induction rest generalizing current with
  | nil => exact sequence
  | cons next rest ih =>
      rw [mergeFrom]
      split
      · exact ih (inSequence_joined sequence)
      · have later := ih sequence.tail
        refine ⟨fun stretch member => ?_, List.pairwise_cons.mpr
          ⟨fun stretch member => ?_, later.follow⟩⟩
        · rcases List.mem_cons.mp member with rfl | after
          · exact sequence.positive stretch List.mem_cons_self
          · exact later.positive stretch after
        · rcases exists_start_eq_of_mem_mergeFrom member with same | ⟨other, inRest, same⟩
          · exact (sequence.stop_le List.mem_cons_self).trans same.symm.le
          · exact (sequence.stop_le (List.mem_cons_of_mem _ inRest)).trans same.symm.le

omit [DecidableEq L] in
theorem labelledAt_cons {first : Stretch T L} {moment : T} {label : L} :
    LabelledAt (first :: rest) moment label ↔
      (first.Covers moment ∧ first.label = label) ∨ LabelledAt rest moment label :=
  List.exists_mem_cons_iff ..

theorem labelledAt_mergeFrom {current : Stretch T L} {rest : List (Stretch T L)}
    (positive : ∀ stretch ∈ current :: rest, stretch.start < stretch.stop) {moment : T} {label : L} :
    LabelledAt (mergeFrom current rest) moment label ↔
      LabelledAt (current :: rest) moment label := by
  induction rest generalizing current with
  | nil => rfl
  | cons next rest ih =>
      obtain ⟨first, second, later⟩ := List.forall_mem_cons.mp positive |>.imp_right
        List.forall_mem_cons.mp
      rw [mergeFrom]
      split
      · rename_i joins
        have covers : ({ current with stop := next.stop } : Stretch T L).Covers moment ↔
            current.Covers moment ∨ next.Covers moment := by
          constructor
          · rintro ⟨started, lasts⟩
            by_cases early : moment < current.stop
            · exact Or.inl ⟨started, early⟩
            · exact Or.inr ⟨joins.1 ▸ not_lt.mp early, lasts⟩
          · rintro (⟨started, lasts⟩ | ⟨started, lasts⟩)
            · exact ⟨started, lasts.trans (joins.1 ▸ second)⟩
            · exact ⟨first.le.trans (joins.1.le.trans started), lasts⟩
        have joined : ∀ stretch ∈ { current with stop := next.stop } :: rest,
            stretch.start < stretch.stop :=
          List.forall_mem_cons.mpr ⟨(first.trans_eq joins.1).trans second, later⟩
        rw [ih joined, labelledAt_cons, labelledAt_cons, labelledAt_cons,
          covers, ← joins.2, or_and_right, or_assoc]
      · rw [labelledAt_cons, labelledAt_cons, ih (List.forall_mem_cons.mpr ⟨second, later⟩)]

theorem inSequence_mergeAdjacent {stretches : List (Stretch T L)}
    (sequence : InSequence stretches) : InSequence (mergeAdjacent stretches) := by
  cases stretches with
  | nil => exact sequence
  | cons first rest => exact inSequence_mergeFrom sequence

/-- Merging keeps the label of every moment. -/
theorem labelAt_mergeAdjacent {stretches : List (Stretch T L)}
    (positive : ∀ stretch ∈ stretches, stretch.start < stretch.stop) {moment : T} {label : L} :
    LabelledAt (mergeAdjacent stretches) moment label ↔ LabelledAt stretches moment label := by
  cases stretches with
  | nil => rfl
  | cons first rest => exact labelledAt_mergeFrom positive

theorem exists_mergeFrom_eq_cons (current : Stretch T L) (rest : List (Stretch T L)) :
    ∃ stop others, mergeFrom current rest = { current with stop := stop } :: others := by
  induction rest generalizing current with
  | nil => exact ⟨current.stop, [], rfl⟩
  | cons next rest ih =>
      rw [mergeFrom]
      split
      · exact ih { current with stop := next.stop }
      · exact ⟨current.stop, mergeFrom next rest, rfl⟩

/-- Merged neighbours do not continue each other. -/
theorem isChain_mergeAdjacent (stretches : List (Stretch T L)) :
    (mergeAdjacent stretches).IsChain fun first second =>
      ¬(first.stop = second.start ∧ first.label = second.label) := by
  cases stretches with
  | nil => exact List.isChain_nil
  | cons first rest =>
      change (mergeFrom first rest).IsChain _
      induction rest generalizing first with
      | nil => exact List.isChain_singleton _
      | cons next rest ih =>
          rw [mergeFrom]
          split
          · exact ih { first with stop := next.stop }
          · rename_i apart
            obtain ⟨stop, others, merged⟩ := exists_mergeFrom_eq_cons next rest
            have later := ih next
            rw [merged] at later ⊢
            exact List.isChain_cons_cons.mpr ⟨apart, later⟩

end Stretches

section Pieces

variable {T : Type*} [LinearOrder T]

/-- Boundaries in order, each once. -/
def sortedBoundaries (boundaries : List T) : List T := sortKeys boundaries.dedup

variable {boundaries : List T}

theorem mem_sortedBoundaries {boundary : T} :
    boundary ∈ sortedBoundaries boundaries ↔ boundary ∈ boundaries := by
  rw [sortedBoundaries, (sortKeys_perm _).mem_iff, List.mem_dedup]

theorem pairwise_sortedBoundaries (boundaries : List T) :
    (sortedBoundaries boundaries).Pairwise (· < ·) := by
  have nodup : (sortedBoundaries boundaries).Nodup :=
    (sortKeys_perm _).nodup_iff.mpr (List.nodup_dedup _)
  exact ((pairwise_sortKeys boundaries.dedup).and nodup).imp fun both =>
    lt_of_le_of_ne both.1 both.2

/-- The pieces between neighbouring boundaries. -/
def pieces (boundaries : List T) : List (T × T) := boundaries.zip boundaries.tail

omit [LinearOrder T] in
@[simp] theorem pieces_cons_cons (first second : T) (rest : List T) :
    pieces (first :: second :: rest) = (first, second) :: pieces (second :: rest) := rfl

section

variable (sorted : boundaries.Pairwise (· < ·))
include sorted

theorem pairwise_pieces : (pieces boundaries).Pairwise fun first second => first.2 ≤ second.1 := by
  induction boundaries with
  | nil => exact List.Pairwise.nil
  | cons first rest ih =>
      cases rest with
      | nil => exact List.Pairwise.nil
      | cons second rest =>
          obtain ⟨_, later⟩ := List.pairwise_cons.mp sorted
          refine List.pairwise_cons.mpr ⟨fun piece member => ?_, ih later⟩
          have start := (List.of_mem_zip member).1
          rcases List.mem_cons.mp start with same | after
          · exact same.symm.le
          · exact ((List.pairwise_cons.mp later).1 _ after).le

/-- No boundary lies inside a piece. -/
theorem lt_and_apart_of_mem_pieces {piece : T × T} (member : piece ∈ pieces boundaries) :
    piece.1 < piece.2 ∧ piece.1 ∈ boundaries ∧ piece.2 ∈ boundaries ∧
      ∀ boundary ∈ boundaries, boundary ≤ piece.1 ∨ piece.2 ≤ boundary := by
  induction boundaries with
  | nil => cases member
  | cons first rest ih =>
      cases rest with
      | nil => cases member
      | cons second rest =>
          obtain ⟨before, later⟩ := List.pairwise_cons.mp sorted
          rcases List.mem_cons.mp member with rfl | after
          · refine ⟨before second List.mem_cons_self, List.mem_cons_self,
              List.mem_cons_of_mem _ List.mem_cons_self, fun boundary isBoundary => ?_⟩
            rcases List.mem_cons.mp isBoundary with rfl | others
            · exact Or.inl le_rfl
            · rcases List.mem_cons.mp others with rfl | further
              · exact Or.inr le_rfl
              · exact Or.inr ((List.pairwise_cons.mp later).1 boundary further).le
          · obtain ⟨positive, start, stop, apart⟩ := ih later after
            refine ⟨positive, List.mem_cons_of_mem _ start, List.mem_cons_of_mem _ stop,
              fun boundary isBoundary => ?_⟩
            rcases List.mem_cons.mp isBoundary with rfl | others
            · exact Or.inl (before _ start).le
            · exact apart boundary others

/-- A moment between two boundaries lies in a piece. -/
theorem exists_piece {first last moment : T} (isFirst : first ∈ boundaries)
    (isLast : last ∈ boundaries) (after : first ≤ moment) (before : moment < last) :
    ∃ piece ∈ pieces boundaries, piece.1 ≤ moment ∧ moment < piece.2 := by
  induction boundaries generalizing first with
  | nil => cases isFirst
  | cons head rest ih =>
      obtain ⟨above, later⟩ := List.pairwise_cons.mp sorted
      have headBefore : head ≤ moment := by
        rcases List.mem_cons.mp isFirst with rfl | inRest
        · exact after
        · exact (above first inRest).le.trans after
      have lastLater : last ∈ rest := by
        rcases List.mem_cons.mp isLast with rfl | inRest
        · exact absurd (headBefore.trans_lt before) (lt_irrefl _)
        · exact inRest
      cases rest with
      | nil => cases lastLater
      | cons second rest =>
          by_cases early : moment < second
          · exact ⟨(head, second), List.mem_cons_self, headBefore, early⟩
          · obtain ⟨piece, member, inside⟩ :=
              ih later List.mem_cons_self lastLater (not_lt.mp early)
            exact ⟨piece, List.mem_cons_of_mem _ member, inside⟩

end

end Pieces

end PlantManager.Timeline

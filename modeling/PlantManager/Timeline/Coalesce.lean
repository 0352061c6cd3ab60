import Mathlib

/-! # Joining intervals that touch

Half-open intervals in order, each with the next one joined if they touch
(`Timeline.coalesce`). The same moments are inside, and what is left has a hole between
any two intervals (`Timeline.coalesce_spec`), so the place of a moment in the list says
whether two moments have a hole between them.
-/

namespace PlantManager.Timeline

variable {T : Type*} [LinearOrder T]

def Inside (interval : T × T) (moment : T) : Prop := interval.1 ≤ moment ∧ moment < interval.2

instance (interval : T × T) (moment : T) : Decidable (Inside interval moment) :=
  inferInstanceAs (Decidable (_ ∧ _))

/-- A moment is inside one of some intervals. -/
def ActiveAt (intervals : List (T × T)) (moment : T) : Prop :=
  ∃ interval ∈ intervals, Inside interval moment

instance (intervals : List (T × T)) (moment : T) : Decidable (ActiveAt intervals moment) :=
  inferInstanceAs (Decidable (∃ interval ∈ intervals, _))

variable {moment : T} {interval : T × T}

/-- Of windows that follow one another at most one is running at a moment. -/
theorem filter_inside_eq {β : Type*} {window : β → T × T} {items : List β}
    (follow : items.Pairwise fun first second => (window first).2 ≤ (window second).1) {item : β}
    (member : item ∈ items) (inside : Inside (window item) moment) :
    (items.filter fun item => Inside (window item) moment) = [item] := by
  obtain ⟨front, rest, rfl⟩ := List.append_of_mem member
  obtain ⟨-, follow, apart⟩ := List.pairwise_append.mp follow
  have before : (front.filter fun item => Inside (window item) moment) = [] := by
    refine List.filter_eq_nil_iff.mpr fun earlier isEarlier both => ?_
    have ended := apart earlier isEarlier item List.mem_cons_self
    exact absurd (of_decide_eq_true both).2 (not_lt.mpr (ended.trans inside.1))
  have after : (rest.filter fun item => Inside (window item) moment) = [] := by
    refine List.filter_eq_nil_iff.mpr fun later isLater both => ?_
    have ended := (List.pairwise_cons.mp follow).1 later isLater
    exact absurd inside.2 (not_lt.mpr (ended.trans (of_decide_eq_true both).1))
  rw [List.filter_append, before, List.filter_cons, if_pos (decide_eq_true inside), after]
  rfl

/-- Append an interval, or extend the last one if they touch. -/
def coalesceStep (coalesced : List (T × T)) (interval : T × T) : List (T × T) :=
  match coalesced.getLast? with
  | none => coalesced ++ [interval]
  | some last =>
      if last.2 = interval.1 then coalesced.dropLast ++ [(last.1, interval.2)]
      else coalesced ++ [interval]

def coalesce (intervals : List (T × T)) : List (T × T) := intervals.foldl coalesceStep []

/-- Intervals with a hole between any two. -/
structure Separated (intervals : List (T × T)) : Prop where
  positive : ∀ interval ∈ intervals, interval.1 < interval.2
  holes : intervals.Pairwise fun first second => first.2 < second.1

theorem activeAt_append {intervals others : List (T × T)} :
    ActiveAt (intervals ++ others) moment ↔ ActiveAt intervals moment ∨ ActiveAt others moment := by
  simp only [ActiveAt, List.mem_append, or_and_right, exists_or]

theorem activeAt_singleton : ActiveAt [interval] moment ↔ Inside interval moment := by
  simp only [ActiveAt, List.mem_singleton, exists_eq_left]

theorem inside_joined {last : T × T} (lastPositive : last.1 < last.2)
    (positive : interval.1 < interval.2) (touch : last.2 = interval.1) :
    Inside (last.1, interval.2) moment ↔ Inside last moment ∨ Inside interval moment := by
  rw [touch] at lastPositive
  constructor
  · rintro ⟨started, lasts⟩
    by_cases early : moment < last.2
    · exact Or.inl ⟨started, early⟩
    · exact Or.inr ⟨touch ▸ not_lt.mp early, lasts⟩
  · rintro (⟨started, lasts⟩ | ⟨started, lasts⟩)
    · exact ⟨started, (touch ▸ lasts).trans positive⟩
    · exact ⟨lastPositive.le.trans started, lasts⟩

/-- Appending one interval keeps the holes and adds the moments inside it. -/
theorem coalesceStep_spec {coalesced : List (T × T)} (separated : Separated coalesced)
    (positive : interval.1 < interval.2) (after : ∀ before ∈ coalesced, before.2 ≤ interval.1) :
    Separated (coalesceStep coalesced interval) ∧
      (∀ moment, ActiveAt (coalesceStep coalesced interval) moment ↔
        ActiveAt coalesced moment ∨ Inside interval moment) ∧
      ∀ before ∈ coalesceStep coalesced interval, before.2 ≤ interval.2 := by
  rcases List.eq_nil_or_concat' coalesced with rfl | ⟨front, last, rfl⟩
  · refine ⟨⟨List.forall_mem_singleton.mpr positive, List.pairwise_singleton _ _⟩,
      fun moment => ?_, List.forall_mem_singleton.mpr le_rfl⟩
    exact activeAt_append.trans (or_congr_right activeAt_singleton)
  · obtain ⟨lengths, holes⟩ := separated
    rw [List.forall_mem_append, List.forall_mem_singleton] at lengths after
    obtain ⟨frontHoles, -, apart⟩ := List.pairwise_append.mp holes
    have beforeLast : ∀ before ∈ front, before.2 < last.1 :=
      fun before member => apart before member last (List.mem_singleton_self last)
    have ended : ∀ before ∈ front, before.2 < interval.1 := fun before member =>
      (beforeLast before member).trans (lengths.2.trans_le after.2)
    rw [coalesceStep, List.getLast?_concat]
    dsimp only
    split
    · next touch =>
        rw [List.dropLast_concat]
        refine ⟨⟨?_, ?_⟩, fun moment => ?_, ?_⟩
        · rw [List.forall_mem_append, List.forall_mem_singleton]
          exact ⟨lengths.1, lengths.2.trans (touch ▸ positive)⟩
        · refine List.pairwise_append.mpr ⟨frontHoles, List.pairwise_singleton _ _, ?_⟩
          intro before member joined isJoined
          rw [List.mem_singleton.mp isJoined]
          exact beforeLast before member
        · rw [activeAt_append, activeAt_append, activeAt_singleton, activeAt_singleton,
            inside_joined lengths.2 positive touch, or_assoc]
        · rw [List.forall_mem_append, List.forall_mem_singleton]
          exact ⟨fun before member => ((ended before member).trans positive).le, le_rfl⟩
    · next apartFromLast =>
        refine ⟨⟨?_, ?_⟩, fun moment => ?_, ?_⟩
        · rw [List.forall_mem_append, List.forall_mem_append, List.forall_mem_singleton,
            List.forall_mem_singleton]
          exact ⟨lengths, positive⟩
        · refine List.pairwise_append.mpr ⟨holes, List.pairwise_singleton _ _, ?_⟩
          intro before member added isAdded
          rw [List.mem_singleton.mp isAdded]
          rcases List.mem_append.mp member with earlier | isLast
          · exact ended before earlier
          · rw [List.mem_singleton.mp isLast]
            exact lt_of_le_of_ne after.2 apartFromLast
        · rw [activeAt_append, activeAt_singleton]
        · rw [List.forall_mem_append, List.forall_mem_append, List.forall_mem_singleton,
            List.forall_mem_singleton]
          exact ⟨⟨fun before member => ((ended before member).trans positive).le,
            after.2.trans positive.le⟩, le_rfl⟩

theorem foldl_coalesceStep_spec {intervals coalesced : List (T × T)}
    (positive : ∀ interval ∈ intervals, interval.1 < interval.2)
    (follow : intervals.Pairwise fun first second => first.2 ≤ second.1)
    (separated : Separated coalesced)
    (after : ∀ before ∈ coalesced, ∀ interval ∈ intervals, before.2 ≤ interval.1) :
    Separated (intervals.foldl coalesceStep coalesced) ∧
      ∀ moment, ActiveAt (intervals.foldl coalesceStep coalesced) moment ↔
        ActiveAt coalesced moment ∨ ActiveAt intervals moment := by
  induction intervals generalizing coalesced with
  | nil => exact ⟨separated, fun moment => (or_iff_left (by simp [ActiveAt])).symm⟩
  | cons interval rest ih =>
      rw [List.forall_mem_cons] at positive
      rw [List.pairwise_cons] at follow
      obtain ⟨kept, active, ended⟩ := coalesceStep_spec separated positive.1
        fun before member => after before member interval List.mem_cons_self
      obtain ⟨all, same⟩ := ih positive.2 follow.2 kept fun before member next later =>
        (ended before member).trans (follow.1 next later)
      refine ⟨all, fun moment => ?_⟩
      rw [List.foldl_cons, same, active, or_assoc, ← activeAt_singleton, ← activeAt_append,
        List.singleton_append]

/-- What is left has holes, and the same moments inside. -/
theorem coalesce_spec {intervals : List (T × T)}
    (positive : ∀ interval ∈ intervals, interval.1 < interval.2)
    (follow : intervals.Pairwise fun first second => first.2 ≤ second.1) :
    Separated (coalesce intervals) ∧
      ∀ moment, ActiveAt (coalesce intervals) moment ↔ ActiveAt intervals moment := by
  obtain ⟨separated, active⟩ := @foldl_coalesceStep_spec _ _ intervals [] positive follow
    ⟨fun _ member => absurd member List.not_mem_nil, List.Pairwise.nil⟩
    fun _ member => absurd member List.not_mem_nil
  refine ⟨separated, fun moment => (active moment).trans (or_iff_right ?_)⟩
  rintro ⟨_, member, -⟩
  exact absurd member List.not_mem_nil

/-! ## The place of a moment -/

/-- The position of the first interval that a moment is inside of. -/
def intervalIndex (intervals : List (T × T)) (moment : T) : Option ℕ :=
  intervals.findIdx? fun interval => Inside interval moment

variable {intervals : List (T × T)}

theorem isSome_intervalIndex :
    (intervalIndex intervals moment).isSome = true ↔ ActiveAt intervals moment := by
  rw [intervalIndex, List.findIdx?_isSome, List.any_eq_true]
  simp only [decide_eq_true_eq, ActiveAt]

theorem getElem?_of_intervalIndex {moment : T} {index : ℕ}
    (found : intervalIndex intervals moment = some index) :
    ∃ interval, intervals[index]? = some interval ∧ Inside interval moment := by
  obtain ⟨inBounds, inside, -⟩ := List.findIdx?_eq_some_iff_getElem.mp found
  exact ⟨intervals[index], List.getElem?_eq_getElem inBounds, of_decide_eq_true inside⟩

/-- Between moments of one interval there is no hole. -/
theorem activeAt_of_same_index {first last : T} {index : ℕ}
    (isFirst : intervalIndex intervals first = some index)
    (isLast : intervalIndex intervals last = some index) (started : first ≤ moment)
    (lasts : moment ≤ last) : ActiveAt intervals moment := by
  obtain ⟨interval, found, inside⟩ := getElem?_of_intervalIndex isFirst
  obtain ⟨other, same, alsoInside⟩ := getElem?_of_intervalIndex isLast
  obtain rfl := Option.some.inj (found.symm.trans same)
  exact ⟨interval, List.mem_of_getElem? found, inside.1.trans started,
    lasts.trans_lt alsoInside.2⟩

section

variable (separated : Separated intervals)
include separated

theorem Separated.eq_or_hole {first second : T × T} (isFirst : first ∈ intervals)
    (isSecond : second ∈ intervals) : first = second ∨ first.2 < second.1 ∨ second.2 < first.1 := by
  let Related := fun one other : T × T => one = other ∨ one.2 < other.1 ∨ other.2 < one.1
  have ahead : intervals.Pairwise Related :=
    separated.holes.imp fun hole => Or.inr (Or.inl hole)
  have behind : intervals.Pairwise (flip Related) :=
    separated.holes.imp fun hole => Or.inr (Or.inr hole)
  have self : ∀ one ∈ intervals, Related one one := fun _ _ => Or.inl rfl
  exact ahead.forall_of_forall_of_flip self behind isFirst isSecond

/-- The end of an interval is in a hole. -/
theorem Separated.not_activeAt_stop (member : interval ∈ intervals) :
    ¬ ActiveAt intervals interval.2 := by
  rintro ⟨other, otherMember, started, lasts⟩
  rcases separated.eq_or_hole member otherMember with rfl | hole | hole
  · exact lt_irrefl _ lasts
  · exact not_le.mpr hole started
  · exact lt_asymm (hole.trans (separated.positive interval member)) lasts

/-- Between moments of different intervals there is a hole. -/
theorem Separated.exists_hole {first last : T} {index other : ℕ}
    (isFirst : intervalIndex intervals first = some index)
    (isLast : intervalIndex intervals last = some other) (different : index ≠ other)
    (ordered : first ≤ last) :
    ∃ moment, first < moment ∧ moment < last ∧ ¬ ActiveAt intervals moment := by
  obtain ⟨interval, found, started, lasts⟩ := getElem?_of_intervalIndex isFirst
  obtain ⟨later, laterFound, laterStarted, laterLasts⟩ := getElem?_of_intervalIndex isLast
  obtain ⟨inBounds, rfl⟩ := List.getElem?_eq_some_iff.mp found
  obtain ⟨laterInBounds, rfl⟩ := List.getElem?_eq_some_iff.mp laterFound
  have holes := List.pairwise_iff_getElem.mp separated.holes
  rcases lt_or_gt_of_ne different with before | after
  · have hole := holes index other inBounds laterInBounds before
    exact ⟨intervals[index].2, lasts, hole.trans_le laterStarted,
      separated.not_activeAt_stop (List.getElem_mem inBounds)⟩
  · have hole := holes other index laterInBounds inBounds after
    exact absurd (hole.trans_le started) (not_lt.mpr (ordered.trans laterLasts.le))

end

end PlantManager.Timeline

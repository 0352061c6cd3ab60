import PlantManager.Timeline.Coalesce

/-! # Neighbours joined over permitted gaps

Items with windows that follow one another, some neighbours of which were joined
(`Timeline.Joined`). Joining again is joining (`Timeline.Joined.trans`).
Every window stays inside one that is left, and what is newly inside lies in a permitted gap between
two neighbours (`Timeline.Joined.exists_neighbours`).
-/

namespace PlantManager.Timeline

variable {T β κ : Type*}

variable (window : β → T × T) (label : β → κ) (mayBridge : T → T → Prop)

/-- A run of items and the one that they were joined into, over gaps that may be bridged. -/
inductive Joins : List β → β → Prop
  | one (item : β) : Joins [item] item
  | join {front rest : List β} {first second joined : β} (left : Joins front first)
      (right : Joins rest second) (bridged : mayBridge (window first).2 (window second).1)
      (starts : (window joined).1 = (window first).1)
      (stops : (window joined).2 = (window second).2)
      (labelled : label joined = label first ∨ label joined = label second) :
      Joins (front ++ rest) joined

/-- Runs of items, each joined into one. -/
inductive Joined : List β → List β → Prop
  | nil : Joined [] []
  | cons {run rest others : List β} {joined : β} (joins : Joins window label mayBridge run joined)
      (tail : Joined rest others) : Joined (run ++ rest) (joined :: others)

variable {window label mayBridge}

namespace Joined

theorem refl (items : List β) : Joined window label mayBridge items items := by
  induction items with
  | nil => exact .nil
  | cons item rest ih => exact .cons (.one item) ih

theorem split {items front rest : List β}
    (joined : Joined window label mayBridge items (front ++ rest)) :
    ∃ before after, items = before ++ after ∧ Joined window label mayBridge before front ∧
      Joined window label mayBridge after rest := by
  induction front generalizing items with
  | nil => exact ⟨[], items, rfl, .nil, joined⟩
  | cons first front ih =>
      cases joined with
      | @cons run _ _ _ joins tail =>
          obtain ⟨before, after, rfl, left, right⟩ := ih tail
          exact ⟨run ++ before, after, (List.append_assoc run before after).symm, .cons joins left,
            right⟩

end Joined

/-- Joining items that were joined before. -/
theorem Joins.of_joined {items middle : List β} {joined : β}
    (joins : Joins window label mayBridge middle joined)
    (before : Joined window label mayBridge items middle) :
    Joins window label mayBridge items joined := by
  induction joins generalizing items with
  | one item =>
      cases before with
      | cons joins tail =>
          cases tail with
          | nil => rwa [List.append_nil]
  | join left right bridged starts stops labelled ihLeft ihRight =>
      obtain ⟨front, rest, rfl, first, second⟩ := before.split
      exact .join (ihLeft first) (ihRight second) bridged starts stops labelled

theorem Joined.trans {items middle others : List β}
    (first : Joined window label mayBridge items middle)
    (second : Joined window label mayBridge middle others) :
    Joined window label mayBridge items others := by
  induction second generalizing items with
  | nil => exact first
  | cons joins tail ih =>
      obtain ⟨before, after, rfl, left, right⟩ := first.split
      exact .cons (joins.of_joined left) (ih right)

namespace Joins

variable {run : List β} {joined : β}

section

variable (joins : Joins window label mayBridge run joined)
include joins

theorem label_mem : ∃ item ∈ run, label item = label joined := by
  induction joins with
  | one item => exact ⟨item, List.mem_singleton_self item, rfl⟩
  | join _ _ _ _ _ labelled left right =>
      rcases labelled with same | same
      · obtain ⟨item, member, equal⟩ := left
        exact ⟨item, List.mem_append_left _ member, equal.trans same.symm⟩
      · obtain ⟨item, member, equal⟩ := right
        exact ⟨item, List.mem_append_right _ member, equal.trans same.symm⟩

theorem exists_first :
    ∃ first rest, run = first :: rest ∧ (window joined).1 = (window first).1 := by
  induction joins with
  | one item => exact ⟨item, [], rfl, rfl⟩
  | @join _ rest _ _ _ _ _ _ starts _ _ left _ =>
      obtain ⟨first, others, rfl, same⟩ := left
      exact ⟨first, others ++ rest, rfl, starts.trans same⟩

theorem exists_last :
    ∃ front last, run = front ++ [last] ∧ (window joined).2 = (window last).2 := by
  induction joins with
  | one item => exact ⟨[], item, rfl, rfl⟩
  | @join front _ _ _ _ _ _ _ _ stops _ _ right =>
      obtain ⟨others, last, rfl, same⟩ := right
      exact ⟨front ++ others, last, (List.append_assoc ..).symm, stops.trans same⟩

end

end Joins

theorem Joined.label_mem {items others : List β}
    (joined : Joined window label mayBridge items others) {other : β}
    (member : other ∈ others) : ∃ item ∈ items, label item = label other := by
  induction joined with
  | nil => exact absurd member List.not_mem_nil
  | cons joins tail ih =>
      rcases List.mem_cons.mp member with rfl | later
      · obtain ⟨item, inRun, same⟩ := joins.label_mem
        exact ⟨item, List.mem_append_left _ inRun, same⟩
      · obtain ⟨item, isLater, same⟩ := ih later
        exact ⟨item, List.mem_append_right _ isLater, same⟩

section Inside

variable [LinearOrder T]

/-- The windows of items last and follow one another. -/
structure Follows (window : β → T × T) (items : List β) : Prop where
  forward : ∀ item ∈ items, (window item).1 ≤ (window item).2
  apart : items.Pairwise fun first second => (window first).2 ≤ (window second).1

theorem Follows.sublist {items part : List β} (follows : Follows window items)
    (sub : part.Sublist items) : Follows window part where
  forward item member := follows.forward item (sub.mem member)
  apart := follows.apart.sublist sub

namespace Joins

variable {run : List β} {joined : β}

/-- The windows of the run are inside the joined one. -/
theorem within (joins : Joins window label mayBridge run joined) (follows : Follows window run) :
    ∀ item ∈ run, (window joined).1 ≤ (window item).1 ∧ (window item).2 ≤ (window joined).2 := by
  obtain ⟨first, rest, started, starts⟩ := joins.exists_first
  obtain ⟨front, last, ended, stops⟩ := joins.exists_last
  rw [starts, stops]
  intro item member
  constructor
  · subst started
    rcases List.mem_cons.mp member with rfl | later
    · exact le_rfl
    · exact (follows.forward first List.mem_cons_self).trans
        ((List.pairwise_cons.mp follows.apart).1 item later)
  · subst ended
    rcases List.mem_append.mp member with earlier | isLast
    · exact ((List.pairwise_append.mp follows.apart).2.2 item earlier last
        (List.mem_singleton_self last)).trans
          (follows.forward last (List.mem_append_right _ (List.mem_singleton_self last)))
    · rw [List.mem_singleton.mp isLast]

/-- What is inside the joined window is inside one of the run, or in a gap between neighbours. -/
theorem exists_neighbours (joins : Joins window label mayBridge run joined)
    (follows : Follows window run) {moment : T} (inside : Inside (window joined) moment) :
    (∃ item ∈ run, Inside (window item) moment) ∨
      ∃ first second, [first, second] <:+: run ∧ mayBridge (window first).2 (window second).1 ∧
        (window first).2 ≤ moment ∧ moment < (window second).1 := by
  induction joins with
  | one item => exact Or.inl ⟨item, List.mem_singleton_self item, inside⟩
  | @join front rest first second joined left right bridged starts stops _ ihLeft ihRight =>
      obtain ⟨begun, early⟩ := inside
      by_cases before : moment < (window first).2
      · rcases ihLeft (follows.sublist (List.sublist_append_left _ _)) ⟨starts ▸ begun, before⟩ with
          ⟨item, member, covers⟩ | ⟨one, two, neighbours, gap⟩
        · exact Or.inl ⟨item, List.mem_append_left _ member, covers⟩
        · exact Or.inr ⟨one, two, neighbours.trans (List.infix_append [] front rest), gap⟩
      · by_cases after : (window second).1 ≤ moment
        · rcases ihRight (follows.sublist (List.sublist_append_right _ _))
            ⟨after, stops ▸ early⟩ with ⟨item, member, covers⟩ | ⟨one, two, neighbours, gap⟩
          · exact Or.inl ⟨item, List.mem_append_right _ member, covers⟩
          · exact Or.inr ⟨one, two, neighbours.trans (List.suffix_append front rest).isInfix, gap⟩
        · obtain ⟨pre, last, rfl, ends⟩ := left.exists_last
          obtain ⟨next, post, rfl, begins⟩ := right.exists_first
          refine Or.inr ⟨last, next, ⟨pre, post, by simp⟩, ends ▸ begins ▸ bridged, ?_, ?_⟩
          · exact ends ▸ not_lt.mp before
          · exact begins ▸ not_le.mp after

end Joins

namespace Joined

variable {items others : List β}

/-- Every window stays inside one that is left. -/
theorem exists_within (joined : Joined window label mayBridge items others)
    (follows : Follows window items) {item : β} (member : item ∈ items) :
    ∃ other ∈ others, (window other).1 ≤ (window item).1 ∧
      (window item).2 ≤ (window other).2 := by
  induction joined with
  | nil => exact absurd member List.not_mem_nil
  | @cons run rest others joined joins tail ih =>
      rcases List.mem_append.mp member with inRun | later
      · exact ⟨joined, List.mem_cons_self,
          joins.within (follows.sublist (List.sublist_append_left _ _)) item inRun⟩
      · obtain ⟨other, isLeft, inside⟩ := ih (follows.sublist (List.sublist_append_right _ _)) later
        exact ⟨other, List.mem_cons_of_mem _ isLeft, inside⟩

omit [LinearOrder T] in
theorem exists_start (joined : Joined window label mayBridge items others) {other : β}
    (member : other ∈ others) : ∃ item ∈ items, (window other).1 = (window item).1 := by
  induction joined with
  | nil => exact absurd member List.not_mem_nil
  | cons joins tail ih =>
      rcases List.mem_cons.mp member with rfl | later
      · obtain ⟨first, rest, rfl, same⟩ := joins.exists_first
        exact ⟨first, List.mem_append_left _ List.mem_cons_self, same⟩
      · obtain ⟨item, isLater, same⟩ := ih later
        exact ⟨item, List.mem_append_right _ isLater, same⟩

/-- The joined windows follow one another as well. -/
theorem follows (joined : Joined window label mayBridge items others)
    (before : Follows window items) : Follows window others := by
  induction joined with
  | nil => exact before
  | @cons run rest others joined joins tail ih =>
      obtain ⟨-, -, apart⟩ := List.pairwise_append.mp before.apart
      have later := ih (before.sublist (List.sublist_append_right _ _))
      refine ⟨List.forall_mem_cons.mpr ⟨?_, later.forward⟩,
        List.pairwise_cons.mpr ⟨fun other member => ?_, later.apart⟩⟩
      · obtain ⟨first, others, rfl, starts⟩ := joins.exists_first
        have inside := joins.within (before.sublist (List.sublist_append_left _ _)) first
          List.mem_cons_self
        exact inside.1.trans ((before.forward first List.mem_cons_self).trans inside.2)
      · obtain ⟨front, last, rfl, stops⟩ := joins.exists_last
        obtain ⟨item, isLater, starts⟩ := tail.exists_start member
        rw [stops, starts]
        exact apart last (List.mem_append_right _ (List.mem_singleton_self last)) item isLater

/-- What is newly inside lies in a permitted gap between neighbours. -/
theorem exists_neighbours (joined : Joined window label mayBridge items others)
    (follows : Follows window items) {other : β} (member : other ∈ others) {moment : T}
    (inside : Inside (window other) moment) :
    (∃ item ∈ items, Inside (window item) moment) ∨
      ∃ first second, [first, second] <:+: items ∧ mayBridge (window first).2 (window second).1 ∧
        (window first).2 ≤ moment ∧ moment < (window second).1 := by
  induction joined with
  | nil => exact absurd member List.not_mem_nil
  | @cons run rest others joined joins tail ih =>
      rcases List.mem_cons.mp member with rfl | later
      · rcases joins.exists_neighbours (follows.sublist (List.sublist_append_left _ _)) inside with
          ⟨item, inRun, covers⟩ | ⟨one, two, neighbours, gap⟩
        · exact Or.inl ⟨item, List.mem_append_left _ inRun, covers⟩
        · exact Or.inr ⟨one, two, neighbours.trans (List.prefix_append run rest).isInfix, gap⟩
      · rcases ih (follows.sublist (List.sublist_append_right _ _)) later with
          ⟨item, isLater, covers⟩ | ⟨one, two, neighbours, gap⟩
        · exact Or.inl ⟨item, List.mem_append_right _ isLater, covers⟩
        · exact Or.inr ⟨one, two, neighbours.trans (List.suffix_append run rest).isInfix, gap⟩

end Joined

end Inside

end PlantManager.Timeline

import PlantManager.Timeline.Coalesce

/-! # Intervals that the next one closes

Items in the order of their starts, each closed by its own end, by the start of the next one and by
a cap (`Timeline.closeAll`). The item that holds a moment is the last one that has
started, unless it has ended (`Timeline.mem_closeAll_iff`).
`Timeline.fillGaps` puts something in the gaps between intervals, and nothing is left
open (`Timeline.fillGaps_spec`).
-/

namespace PlantManager.Timeline

variable {T : Type*} [LinearOrder T]

section Closing

variable {α : Type*} (start : α → T) (stop : α → Option T) (floor cap : T)

/-- The end of an item: its own or the cap, but no later than the next start. -/
def closingMoment (ended next : Option T) : T :=
  let given := ended.getD cap
  min (next.elim given fun following => min given following) cap

/-- Close every item and leave out those that do not last. -/
def closeAll : List α → List (α × (T × T))
  | [] => []
  | item :: rest =>
      let left := max (start item) floor
      let right := closingMoment cap (stop item) (rest.head?.map start)
      if left < right then (item, (left, right)) :: closeAll rest else closeAll rest

/-- The last item that has started, unless it has ended. -/
def holder (items : List α) (moment : T) : Option α :=
  ((items.filter fun item => start item ≤ moment).getLast?).filter fun item =>
    ∀ ended ∈ stop item, moment < ended

theorem lt_closingMoment_iff {ended next : Option T} {moment : T} (early : moment < cap) :
    moment < closingMoment cap ended next ↔
      (∀ left ∈ ended, moment < left) ∧ ∀ following ∈ next, moment < following := by
  unfold closingMoment
  cases ended with
  | none | some left => cases next with
    | none | some following => simp [early]

theorem closingMoment_le_cap (ended next : Option T) : closingMoment cap ended next ≤ cap :=
  min_le_right _ _

theorem closingMoment_le_next (ended : Option T) (following : T) :
    closingMoment cap ended (some following) ≤ following :=
  (min_le_left _ _).trans (min_le_right _ _)

theorem map_fst_closeAll_sublist (items : List α) :
    ((closeAll start stop floor cap items).map Prod.fst).Sublist items := by
  induction items with
  | nil => exact .slnil
  | cons item rest ih =>
      rw [closeAll]
      split
      · exact ih.cons_cons item
      · exact ih.cons item

variable {items : List α}

theorem mem_of_mem_closeAll {closed : α × (T × T)}
    (member : closed ∈ closeAll start stop floor cap items) : closed.1 ∈ items :=
  (map_fst_closeAll_sublist start stop floor cap items).subset (List.mem_map_of_mem member)

/-- What is closed lasts, and lies after its own start, the floor and before the cap. -/
theorem closeAll_within {closed : α × (T × T)}
    (member : closed ∈ closeAll start stop floor cap items) :
    closed.2.1 < closed.2.2 ∧ start closed.1 ≤ closed.2.1 ∧ floor ≤ closed.2.1 ∧
      closed.2.2 ≤ cap := by
  induction items with
  | nil => exact absurd member List.not_mem_nil
  | cons item rest ih =>
      rw [closeAll] at member
      split at member
      · next lasts =>
          rcases List.mem_cons.mp member with rfl | later
          · exact ⟨lasts, le_max_left _ _, le_max_right _ _, closingMoment_le_cap cap _ _⟩
          · exact ih later
      · exact ih member

variable {start} in
/-- No item goes on after the start of a later one. -/
theorem follow_closeAll (ordered : items.Pairwise fun first second => start first ≤ start second) :
    (closeAll start stop floor cap items).Pairwise fun first second => first.2.2 ≤ second.2.1 := by
  induction items with
  | nil => exact .nil
  | cons item rest ih =>
      obtain ⟨-, later⟩ := List.pairwise_cons.mp ordered
      rw [closeAll]
      split
      · refine List.pairwise_cons.mpr ⟨fun closed member => ?_, ih later⟩
        obtain ⟨-, started, -, -⟩ := closeAll_within start stop floor cap member
        have isLater := mem_of_mem_closeAll start stop floor cap member
        cases rest with
        | nil => exact absurd isLater List.not_mem_nil
        | cons next others =>
            have first : start next ≤ start closed.1 := by
              rcases List.mem_cons.mp isLater with same | after
              · rw [same]
              · exact (List.pairwise_cons.mp later).1 _ after
            exact (closingMoment_le_next cap (stop item) (start next)).trans (first.trans started)
      · exact ih later

theorem holder_cons {item : α} {rest : List α} {moment : T}
    (started : ∃ next ∈ rest, start next ≤ moment) :
    holder start stop (item :: rest) moment = holder start stop rest moment := by
  obtain ⟨next, member, reached⟩ := started
  have some_ : (rest.filter fun item => start item ≤ moment) ≠ [] :=
    List.ne_nil_of_mem (List.mem_filter.mpr ⟨member, decide_eq_true reached⟩)
  rw [holder, List.filter_cons]
  split
  · rw [← List.singleton_append, List.getLast?_append_of_ne_nil _ some_]
    rfl
  · rfl

theorem holder_cons_of_later {item : α} {rest : List α} {moment : T}
    (later : ∀ next ∈ rest, moment < start next) :
    holder start stop (item :: rest) moment =
      if start item ≤ moment ∧ ∀ ended ∈ stop item, moment < ended then some item else none := by
  have nothing : (rest.filter fun item => start item ≤ moment) = [] :=
    List.filter_eq_nil_iff.mpr fun next member =>
      fun reached => absurd (of_decide_eq_true reached) (not_le.mpr (later next member))
  rw [holder, List.filter_cons, nothing]
  by_cases reached : start item ≤ moment
  · rw [if_pos (decide_eq_true reached)]
    simp only [List.getLast?_singleton, Option.filter_some, reached, true_and, decide_eq_true_eq]
  · rw [if_neg (by simpa using reached), if_neg fun both => reached both.1]
    rfl

theorem holder_map {β : Type*} (build : β → α) (items : List β) (moment : T) :
    holder start stop (items.map build) moment =
      (holder (start ∘ build) (stop ∘ build) items moment).map build := by
  rw [holder, holder, List.filter_map, List.getLast?_map, Option.filter_map]
  rfl

/-- Until the cap, the item whose interval is running is the one that holds the moment. -/
theorem mem_closeAll_iff (ordered : items.Pairwise fun first second => start first ≤ start second)
    {moment : T} (begun : floor ≤ moment) (early : moment < cap) {item : α} :
    (∃ interval, (item, interval) ∈ closeAll start stop floor cap items ∧
        Inside interval moment) ↔ holder start stop items moment = some item := by
  induction items with
  | nil => simp [closeAll, holder]
  | cons head rest ih =>
      obtain ⟨first, later⟩ := List.pairwise_cons.mp ordered
      have inHead : Inside (max (start head) floor,
            closingMoment cap (stop head) (rest.head?.map start)) moment ↔
          start head ≤ moment ∧ (∀ ended ∈ stop head, moment < ended) ∧
            ∀ following ∈ rest.head?.map start, moment < following := by
        rw [Inside, max_le_iff, lt_closingMoment_iff cap early]
        tauto
      have either : (∃ interval, (item, interval) ∈ closeAll start stop floor cap (head :: rest) ∧
            Inside interval moment) ↔
          (item = head ∧ Inside (max (start head) floor,
            closingMoment cap (stop head) (rest.head?.map start)) moment) ∨
          ∃ interval, (item, interval) ∈ closeAll start stop floor cap rest ∧
            Inside interval moment := by
        rw [closeAll]
        split
        · simp only [List.mem_cons, Prod.mk.injEq, or_and_right, exists_or, and_assoc,
            exists_and_left, exists_eq_left]
        · next short =>
            refine (or_iff_right ?_).symm
            rintro ⟨-, reached, lasts⟩
            exact short (reached.trans_lt lasts)
      rw [either, ih later, inHead]
      by_cases started : ∃ next ∈ rest, start next ≤ moment
      · rw [holder_cons start stop started]
        refine or_iff_right ?_
        rintro ⟨-, -, -, before⟩
        obtain ⟨next, member, reached⟩ := started
        cases rest with
        | nil => exact absurd member List.not_mem_nil
        | cons following others =>
            have least : start following ≤ start next := by
              rcases List.mem_cons.mp member with same | after
              · rw [same]
              · exact (List.pairwise_cons.mp later).1 next after
            exact absurd (least.trans reached) (not_le.mpr (before _ rfl))
      · have notYet : ∀ next ∈ rest, moment < start next := fun next member =>
          not_le.mp fun reached => started ⟨next, member, reached⟩
        have nobody : holder start stop rest moment = none := by
          rw [holder, List.filter_eq_nil_iff.mpr fun next member =>
            fun reached => absurd (of_decide_eq_true reached) (not_le.mpr (notYet next member))]
          rfl
        have noNext : ∀ following ∈ rest.head?.map start, moment < following := by
          intro following isNext
          obtain ⟨next, isHead, rfl⟩ := Option.map_eq_some_iff.mp isNext
          exact notYet next (List.mem_of_mem_head? isHead)
        rw [holder_cons_of_later start stop notYet, nobody]
        by_cases holds : start head ≤ moment ∧ ∀ ended ∈ stop head, moment < ended
        · rw [if_pos holds, Option.some.injEq, eq_comm (a := head)]
          exact ⟨fun either => either.elim And.left nofun,
            fun same => Or.inl ⟨same, holds.1, holds.2, noNext⟩⟩
        · rw [if_neg holds]
          exact ⟨fun either => either.elim (fun ⟨_, reached, lasts, _⟩ =>
            absurd ⟨reached, lasts⟩ holds) nofun, nofun⟩

end Closing

section Filling

variable {β : Type*} (window : β → T × T) (gap : T → T → β)

/-- From a cursor to the cap, put something before every interval that leaves a gap. -/
def fillGaps (cap : T) : T → List β → List β
  | cursor, [] => if cursor < cap then [gap cursor cap] else []
  | cursor, item :: rest =>
      (if cursor < (window item).1 then [gap cursor (window item).1] else []) ++
        item :: fillGaps cap (max cursor (window item).2) rest

/-- The windows of a list last, and follow one another between two moments. -/
structure InTurn (from_ till : T) (items : List β) : Prop where
  positive : ∀ item ∈ items, (window item).1 < (window item).2
  within : ∀ item ∈ items, from_ ≤ (window item).1 ∧ (window item).2 ≤ till
  follow : items.Pairwise fun first second => (window first).2 ≤ (window second).1

/-- The windows also leave nothing open. -/
structure Tiles (from_ till : T) (filled : List β) : Prop extends
    InTurn window from_ till filled where
  covers : ∀ moment, from_ ≤ moment → moment < till → ∃ item ∈ filled, Inside (window item) moment

variable {window gap}

theorem inTurn_closeAll {α : Type*} (start : α → T) (stop : α → Option T) (floor cap : T)
    {items : List α} (ordered : items.Pairwise fun first second => start first ≤ start second) :
    InTurn Prod.snd floor cap (closeAll start stop floor cap items) where
  positive _ member := (closeAll_within start stop floor cap member).1
  within _ member := (closeAll_within start stop floor cap member).2.2
  follow := follow_closeAll stop floor cap ordered

theorem InTurn.map {α : Type*} {before : α → T × T} {from_ till : T} {items : List α}
    (turns : InTurn before from_ till items) {build : α → β}
    (keeps : ∀ item, window (build item) = before item) :
    InTurn window from_ till (items.map build) where
  positive := List.forall_mem_map.mpr fun item member => keeps item ▸ turns.positive item member
  within := List.forall_mem_map.mpr fun item member => keeps item ▸ turns.within item member
  follow := List.pairwise_map.mpr (by simpa only [keeps] using turns.follow)

theorem Tiles.nil {from_ till : T} (closed : till ≤ from_) : Tiles window from_ till [] where
  positive := List.forall_mem_nil _
  within := List.forall_mem_nil _
  follow := .nil
  covers _ begun early := absurd (begun.trans_lt early) (not_lt.mpr closed)

/-- A window in front of the rest. -/
theorem Tiles.cons {till : T} {item : β} {rest : List β}
    (tiles : Tiles window (window item).2 till rest) (lasts : (window item).1 < (window item).2)
    (early : (window item).2 ≤ till) : Tiles window (window item).1 till (item :: rest) where
  positive := List.forall_mem_cons.mpr ⟨lasts, tiles.positive⟩
  within := List.forall_mem_cons.mpr ⟨⟨le_rfl, early⟩, fun later member =>
    ⟨lasts.le.trans (tiles.within later member).1, (tiles.within later member).2⟩⟩
  follow := List.pairwise_cons.mpr ⟨fun later member => (tiles.within later member).1, tiles.follow⟩
  covers moment begun before := by
    by_cases here : moment < (window item).2
    · exact ⟨item, List.mem_cons_self, begun, here⟩
    · obtain ⟨later, member, inside⟩ := tiles.covers moment (not_lt.mp here) before
      exact ⟨later, List.mem_cons_of_mem item member, inside⟩

variable (reads : ∀ left right, window (gap left right) = (left, right))

include reads in
/-- Filled intervals leave nothing open, and what fills a gap is away from every interval. -/
theorem fillGaps_spec {cap cursor : T} {items : List β}
    (turns : InTurn window cursor cap items) :
    Tiles window cursor cap (fillGaps window gap cap cursor items) ∧
      items.Sublist (fillGaps window gap cap cursor items) ∧
      ∀ filled ∈ fillGaps window gap cap cursor items,
        filled ∈ items ∨ ∃ left right, filled = gap left right := by
  induction items generalizing cursor with
  | nil =>
      rw [fillGaps]
      split
      · next open_ =>
          refine ⟨?_, List.nil_sublist _, fun filled member =>
            Or.inr ⟨cursor, cap, List.mem_singleton.mp member⟩⟩
          have whole := reads cursor cap
          have tiles := @Tiles.cons T _ β window cap (gap cursor cap) [] (.nil (by rw [whole]))
            (by rwa [whole]) (by rw [whole])
          rwa [whole] at tiles
      · next closed => exact ⟨.nil (not_lt.mp closed), .slnil, List.forall_mem_nil _⟩
  | cons item rest ih =>
      obtain ⟨lasts, positive⟩ := List.forall_mem_cons.mp turns.positive
      obtain ⟨⟨begun, early⟩, within⟩ := List.forall_mem_cons.mp turns.within
      obtain ⟨after, follow⟩ := List.pairwise_cons.mp turns.follow
      have next_ : max cursor (window item).2 = (window item).2 :=
        max_eq_right (begun.trans lasts.le)
      obtain ⟨tiles, kept, known⟩ := @ih (window item).2
        ⟨positive, fun later member => ⟨after later member, (within later member).2⟩, follow⟩
      have rested := tiles.cons lasts early
      have knownItem : ∀ filled ∈ item :: fillGaps window gap cap (window item).2 rest,
          filled ∈ item :: rest ∨ ∃ left right, filled = gap left right := by
        refine List.forall_mem_cons.mpr ⟨Or.inl List.mem_cons_self, fun filled member => ?_⟩
        exact (known filled member).imp_left (List.mem_cons_of_mem item)
      rw [fillGaps, next_]
      split
      · have whole := reads cursor (window item).1
        refine ⟨?_, (kept.cons_cons item).cons _, ?_⟩
        · have tiles := @Tiles.cons T _ β window cap (gap cursor (window item).1) _
            (by rwa [whole]) (by rwa [whole]) (by rw [whole]; exact lasts.le.trans early)
          rwa [whole] at tiles
        · exact List.forall_mem_cons.mpr ⟨Or.inr ⟨_, _, rfl⟩, knownItem⟩
      · next reached =>
          rw [begun.antisymm (not_lt.mp reached)]
          exact ⟨rested, kept.cons_cons item, knownItem⟩

end Filling

end PlantManager.Timeline

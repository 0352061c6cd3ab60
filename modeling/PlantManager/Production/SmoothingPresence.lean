import PlantManager.Production.SmoothingSettled
import PlantManager.Ranking.Stable
import PlantManager.Timeline.Joins

/-! # What smoothing keeps of a person's presence

Smoothing joins neighbouring segments of a person over gaps within the limit that no blocking window
overlaps, and does nothing else (`Production.smoothQuickPunches_presence`).
-/

namespace PlantManager.Production

open Mapping Ranking Timeline

def stintWindow (stint : Stint) : ℤ × ℤ := (stint.2.start, stint.2.stop)

/-- Where a stint is, and whose it is. -/
def stintLabel (stint : Stint) : String × PersonKey := (stint.2.wcName, personKey stint.2)

namespace SmoothingData

variable (data : SmoothingData) (blocked : List Window)

/-- A gap within the limit that no blocking window overlaps. -/
def MayBridge (left right : ℤ) : Prop :=
  right - left ≤ data.limit ∧ ¬CrossesBlocked left right blocked

abbrev Smoothed : List Stint → List Stint → Prop :=
  Timeline.Joined stintWindow stintLabel (data.MayBridge blocked)

variable {data blocked} {key : PersonKey}

theorem follows_of_inOrder {stints : List Stint} (inOrder : InOrder key stints) :
    Follows stintWindow stints :=
  ⟨inOrder.forward, inOrder.apart⟩

/-- A gap inside one that may be bridged. -/
theorem MayBridge.inside {left right early late : ℤ} (bridge : data.MayBridge blocked left right)
    (after : left ≤ early) (before : late ≤ right) : data.MayBridge blocked early late := by
  refine ⟨by have := bridge.1; omega, fun crosses => bridge.2 ?_⟩
  obtain ⟨gap, window, member, starts, ends⟩ := crosses
  exact ⟨by omega, window, member, by omega, by omega⟩

/-- Absorbing the next stints is joining them one after another. -/
theorem joins_absorb {current : Stint} {parts : List Stint} {till : ℤ}
    (inOrder : InOrder key (current :: parts)) (early : ∀ stint ∈ parts, stint.2.start ≤ till)
    (bridge : data.MayBridge blocked current.2.stop till) :
    Joins stintWindow stintLabel (data.MayBridge blocked) (current :: parts)
      (absorb current parts) := by
  induction parts using List.reverseRecOn with
  | nil => exact .one current
  | append_singleton parts last ih =>
      have sub : (current :: parts).Sublist (current :: (parts ++ [last])) :=
        (List.sublist_append_left parts [last]).cons_cons current
      have before := ih (inOrder.sublist sub) fun stint member =>
        early stint (List.mem_append_left _ member)
      have isLast : last ∈ parts ++ [last] := List.mem_append_right _ (List.mem_singleton_self last)
      have ended : (absorb current parts).2.stop ≤ last.2.start := by
        refine foldl_max_le (inOrder.stop_le isLast) fun stint member => ?_
        have apart := (List.pairwise_cons.mp inOrder.apart).2
        exact (List.pairwise_append.mp apart).2.2 stint member last (List.mem_singleton_self last)
      have forward := inOrder.forward last (List.mem_cons_of_mem _ isLast)
      have stop : (absorb current (parts ++ [last])).2.stop = last.2.stop := by
        change (parts ++ [last]).foldl (fun stop stint => max stop stint.2.stop) current.2.stop = _
        rw [List.foldl_append]
        exact max_eq_right (ended.trans forward)
      exact .join before (.one last) (bridge.inside (le_foldl_max _ _) (early last isLast)) rfl stop
        (Or.inl rfl)

theorem smoothed_applyCameBack {stints : List Stint} (inOrder : InOrder key stints) :
    data.Smoothed blocked stints (data.applyCameBack blocked stints) := by
  induction stints using SmoothingData.applyCameBack.induct data blocked with
  | case1 =>
      rw [applyCameBack]
      exact .nil
  | case2 current later found ih =>
      rw [applyCameBack_none found]
      exact .cons (.one current) (ih (inOrder.sublist (List.sublist_cons_self current later)))
  | case3 current later detours found ih =>
      have kept := inOrder_absorb inOrder found
      obtain ⟨between, candidate, rest, rfl, returns, split⟩ := exists_isReturn found
      rw [applyCameBack_some found]
      rw [split] at ih kept ⊢
      have regroup : current :: (between ++ candidate :: rest) =
          (current :: (between ++ [candidate])) ++ rest := by simp
      have part : (current :: (between ++ [candidate])).Sublist
          (current :: (between ++ candidate :: rest)) :=
        regroup ▸ List.sublist_append_left _ rest
      have near := returns.near candidate (by simp)
      have early : ∀ stint ∈ between ++ [candidate], stint.2.start ≤ candidate.2.start := by
        refine List.forall_mem_append.mpr ⟨fun stint member => ?_,
          List.forall_mem_singleton.mpr le_rfl⟩
        have forward := inOrder.forward stint
          (List.mem_cons_of_mem _ (List.mem_append_left _ member))
        exact forward.trans (returns.inside stint member).2
      have absorbed : Joins stintWindow stintLabel (data.MayBridge blocked)
          (current :: (between ++ [candidate])) (absorb current (between ++ [candidate])) :=
        joins_absorb (inOrder.sublist part) early ⟨near, returns.clear⟩
      have first : data.Smoothed blocked (current :: (between ++ candidate :: rest))
          (absorb current (between ++ [candidate]) :: rest) :=
        regroup ▸ .cons absorbed (.refl rest)
      exact first.trans (ih kept)

theorem smoothed_applyWrongFirstPick {stints : List Stint} {previousEnd : Option ℤ}
    (inOrder : InOrder key stints) :
    data.Smoothed blocked stints (data.applyWrongFirstPick blocked previousEnd stints) := by
  induction previousEnd, stints using applyWrongFirstPick.induct data blocked with
  | case1 previousEnd current following later wrong ih =>
      obtain ⟨stop, joined⟩ := inOrder_joinNext inOrder
      rw [applyWrongFirstPick, if_pos wrong]
      obtain ⟨-, -, -, near, -, -, clear, -⟩ := wrong
      have pair : Joins stintWindow stintLabel (data.MayBridge blocked) ([current] ++ [following])
          (joinNext current following) :=
        .join (.one current) (.one following) ⟨near, clear⟩ rfl stop (Or.inr rfl)
      have first : data.Smoothed blocked (current :: following :: later)
          (joinNext current following :: later) := .cons pair (.refl later)
      exact first.trans (ih joined)
  | case2 previousEnd current following later right ih =>
      rw [applyWrongFirstPick, if_neg right]
      exact .cons (.one current) (ih (inOrder.sublist (List.sublist_cons_self _ _)))
  | case3 previousEnd stints short =>
      rw [applyWrongFirstPick]
      · exact .refl stints
      · exact short

/-! ## No merges -/

/-- The latest end of stints, if there are any. -/
def latestEnd (stints : List Stint) : Option ℤ :=
  stints.foldl (fun ended stint => some (ended.elim stint.2.stop (max · stint.2.stop))) none

variable (data blocked) in
/-- No stint has a return, and none is a wrong first pick. -/
def Unmerged (stints : List Stint) : Prop :=
  data.Unreturned blocked stints ∧ ∀ front current following later,
    stints = front ++ current :: following :: later →
      ¬data.IsWrongFirstPick blocked (latestEnd front) current.2 following.2

theorem applyCameBack_eq_self {stints : List Stint} (settled : data.Unreturned blocked stints) :
    data.applyCameBack blocked stints = stints := by
  induction stints with
  | nil => rw [applyCameBack]
  | cons current later ih =>
      obtain ⟨stays, rest⟩ := unreturned_cons.mp settled
      rw [applyCameBack_none stays, ih rest]

theorem applyWrongFirstPick_eq_self {front stints : List Stint}
    (right : ∀ more current following later, stints = more ++ current :: following :: later →
      ¬data.IsWrongFirstPick blocked (latestEnd (front ++ more)) current.2 following.2) :
    data.applyWrongFirstPick blocked (latestEnd front) stints = stints := by
  induction stints generalizing front with
  | nil => rw [applyWrongFirstPick]; rintro _ _ _ ⟨⟩
  | cons current later ih =>
      cases later with
      | nil => rw [applyWrongFirstPick]; rintro _ _ _ ⟨⟩
      | cons following later =>
          have here := right [] current following later rfl
          rw [List.append_nil] at here
          have ended : some ((latestEnd front).elim current.2.stop (max · current.2.stop)) =
              latestEnd (front ++ [current]) := by
            rw [latestEnd, latestEnd, List.foldl_append]
            rfl
          rw [applyWrongFirstPick, if_neg here, ended]
          refine congrArg (current :: ·) (ih fun more first second rest split => ?_)
          rw [List.append_assoc]
          exact right (current :: more) first second rest (congrArg (current :: ·) split)

end SmoothingData

namespace SmoothingInput

variable (input : SmoothingInput) (key : PersonKey)

def segmentsOf : List (WorkSegment ℤ) := input.segments.filter fun segment => personKey segment = key

/-- The segments of a person in the order of their times. -/
def inTime : List (WorkSegment ℤ) := (input.stintsOf key).map Prod.snd

/-- The segments of a person after smoothing. -/
def smoothedOf : List (WorkSegment ℤ) :=
  (smoothQuickPunches input).filter fun segment => personKey segment = key

/-- The smoothed stints of a person, in the order of their times. -/
def smoothedStints : List Stint :=
  input.data.applyWrongFirstPick (input.blocked key) none
    (input.data.applyCameBack (input.blocked key) (input.stintsOf key))

variable {input} {key}

theorem smoothed_smoothedStints (apart : input.PunchedApart) :
    input.data.Smoothed (input.blocked key) (input.stintsOf key) (input.smoothedStints key) := by
  have inOrder := inOrder_stintsOf apart key
  exact (SmoothingData.smoothed_applyCameBack inOrder).trans
    (SmoothingData.smoothed_applyWrongFirstPick (SmoothingData.inOrder_applyCameBack inOrder))

theorem smoothPerson_eq {entry : PersonKey × List Stint} (member : entry ∈ input.byPerson.entries) :
    input.smoothPerson entry = input.smoothedStints entry.1 := by
  rw [eq_of_mem_byPerson member]
  rfl

theorem personKey_of_mem_smoothedStints (apart : input.PunchedApart) {stint : Stint}
    (member : stint ∈ input.smoothedStints key) : personKey stint.2 = key := by
  obtain ⟨earlier, before, same⟩ := (smoothed_smoothedStints apart).label_mem member
  exact (congrArg Prod.snd same).symm.trans ((inOrder_stintsOf apart key).person earlier before)

/-- What is left of a person are the smoothed stints, in the order of the input. -/
theorem smoothedOf_eq (apart : input.PunchedApart) :
    input.smoothedOf key = (sortBy Prod.fst (input.smoothedStints key)).map Prod.snd := by
  have owned : ∀ entry ∈ input.byPerson.entries, ∀ stint ∈ input.smoothPerson entry,
      personKey stint.2 = entry.1 := by
    intro entry isEntry stint member
    rw [smoothPerson_eq isEntry] at member
    exact personKey_of_mem_smoothedStints apart member
  have mine := @Dictionary.filter_flatMap_entries PersonKey (List Stint) _ Stint
    (fun stint => personKey stint.2) (fun key stints => input.smoothPerson (key, stints))
    input.byPerson owned key
  have emitted : (input.byPerson.get key).elim [] (fun stints => input.smoothPerson (key, stints)) =
      input.smoothedStints key := by
    cases found : input.byPerson.get key with
    | some stints => exact smoothPerson_eq (Dictionary.get_eq_some_iff.mp found)
    | none =>
        have nothing : input.stintsOf key = [] := by
          by_contra some_
          obtain ⟨stint, member, own⟩ := exists_stint_of_stintsOf_ne_nil some_
          have stored := Dictionary.get_eq_some_iff.mpr (mem_byPerson member own)
          cases found.symm.trans stored
        rw [smoothedStints, nothing, SmoothingData.applyCameBack, SmoothingData.applyWrongFirstPick]
        · rfl
        · rintro _ _ _ ⟨⟩
  rw [smoothedOf, smoothQuickPunches, List.filter_map, ← emitted, ← mine, ← filter_sortBy]
  rfl

theorem smoothedOf_perm (apart : input.PunchedApart) :
    (input.smoothedOf key).Perm ((input.smoothedStints key).map Prod.snd) := by
  rw [smoothedOf_eq apart]
  exact (sortBy_perm Prod.fst _).map Prod.snd

theorem map_snd_filter_stints (input : SmoothingInput) (key : PersonKey) :
    (input.stints.filter fun stint => personKey stint.2 = key).map Prod.snd =
      input.segmentsOf key := by
  rw [segmentsOf, ← map_snd_stints, List.filter_map]
  rfl

theorem segmentsOf_perm (input : SmoothingInput) (key : PersonKey) :
    (input.segmentsOf key).Perm (input.inTime key) := by
  rw [← map_snd_filter_stints]
  exact ((sortBy_perm _ _).map Prod.snd).symm

theorem pairwise_fst_stints (input : SmoothingInput) :
    input.stints.Pairwise fun first second => first.1 < second.1 := by
  have places : input.stints.map Prod.fst = List.range' 0 input.segments.length := by
    rw [stints, List.map_map]
    exact List.zipIdx_map_snd 0 input.segments
  have ordered := List.pairwise_lt_range' (s := 0) (n := input.segments.length)
  rw [← places, List.pairwise_map] at ordered
  exact ordered

theorem smoothedOf_eq_segmentsOf (apart : input.PunchedApart)
    (unmerged : input.data.Unmerged (input.blocked key) (input.stintsOf key)) :
    input.smoothedOf key = input.segmentsOf key := by
  obtain ⟨settled, right⟩ := unmerged
  have kept : input.smoothedStints key = input.stintsOf key := by
    rw [smoothedStints, SmoothingData.applyCameBack_eq_self settled]
    exact @SmoothingData.applyWrongFirstPick_eq_self input.data (input.blocked key) [] _ right
  have places := (pairwise_fst_stints input).filter fun stint => personKey stint.2 = key
  have distinct : ((input.stintsOf key).map Prod.fst).Nodup :=
    (((sortBy_perm _ _).map Prod.fst).nodup_iff).mpr
      (List.pairwise_map.mpr (places.imp fun before => before.ne))
  rw [smoothedOf_eq apart, kept, ← map_snd_filter_stints,
    sortBy_eq_of_perm Prod.fst distinct (sortBy_perm _ _),
    sortBy_eq_self (places.imp fun before => before.le)]

end SmoothingInput

/-- Smoothing keeps the presence of a person, and adds only gaps within the limit, between two
neighbouring segments, that no blocking window overlaps. No segments of the person overlap, no
station is new, and nothing changes where nothing merges. -/
theorem smoothQuickPunches_presence (input : SmoothingInput) (apart : input.PunchedApart)
    (key : PersonKey) :
    ((input.smoothedOf key).Pairwise fun first second =>
      first.stop ≤ second.start ∨ second.stop ≤ first.start) ∧
    (∀ moment, (∃ segment ∈ input.segmentsOf key, segment.Covers moment) →
      ∃ segment, ((input.smoothedOf key).filter fun segment => segment.Covers moment) =
        [segment]) ∧
    (∀ moment, (∃ segment ∈ input.smoothedOf key, segment.Covers moment) →
      (∃ segment ∈ input.segmentsOf key, segment.Covers moment) ∨
      ∃ first second, [first, second] <:+: input.inTime key ∧
        first.stop ≤ moment ∧ moment < second.start ∧ second.start - first.stop ≤ input.limit ∧
        ∀ window ∈ input.blocked key, ¬(window.1 < second.start ∧ first.stop < window.2)) ∧
    (∀ segment ∈ input.smoothedOf key, ∃ earlier ∈ input.segmentsOf key,
      earlier.wcName = segment.wcName) ∧
    (input.data.Unmerged (input.blocked key) (input.stintsOf key) →
      input.smoothedOf key = input.segmentsOf key) := by
  have before := SmoothingData.follows_of_inOrder (SmoothingInput.inOrder_stintsOf apart key)
  have joined := @SmoothingInput.smoothed_smoothedStints input key apart
  have after := joined.follows before
  have left := @SmoothingInput.smoothedOf_perm input key apart
  have given := SmoothingInput.segmentsOf_perm input key
  have fromStint : ∀ segment ∈ input.smoothedOf key, ∃ stint ∈ input.smoothedStints key,
      stint.2 = segment := fun segment member => List.mem_map.mp (left.mem_iff.mp member)
  have isGiven : ∀ stint ∈ input.stintsOf key, stint.2 ∈ input.segmentsOf key :=
    fun stint member => given.mem_iff.mpr (List.mem_map_of_mem member)
  refine ⟨?_, ?_, ?_, ?_, SmoothingInput.smoothedOf_eq_segmentsOf apart⟩
  · refine (left.pairwise_iff fun either => either.symm).mpr (List.pairwise_map.mpr ?_)
    exact after.apart.imp fun ends => Or.inl ends
  · rintro moment ⟨segment, member, begun, lasts⟩
    obtain ⟨stint, isStint, rfl⟩ := List.mem_map.mp (given.mem_iff.mp member)
    obtain ⟨other, isLeft, starts, stops⟩ := joined.exists_within before isStint
    have inside : Inside (stintWindow other) moment := ⟨starts.trans begun, lasts.trans_le stops⟩
    have only := congrArg (List.map Prod.snd) (filter_inside_eq after.apart isLeft inside)
    refine ⟨other.2, List.perm_singleton.mp ((left.filter _).trans (.of_eq ?_))⟩
    rw [List.filter_map]
    exact only
  · rintro moment ⟨segment, member, covers⟩
    obtain ⟨stint, isLeft, rfl⟩ := fromStint segment member
    have running : Inside (stintWindow stint) moment := covers
    rcases joined.exists_neighbours before isLeft running with
      ⟨earlier, isEarlier, inside⟩ | ⟨first, second, neighbours, bridge, ended, begins⟩
    · exact Or.inl ⟨earlier.2, isGiven earlier isEarlier, inside⟩
    · refine Or.inr ⟨first.2, second.2, neighbours.map Prod.snd, ended, begins, bridge.1,
        fun window isWindow overlaps => bridge.2 ?_⟩
      exact ⟨ended.trans_lt begins, window, isWindow, overlaps⟩
  · intro segment member
    obtain ⟨stint, isLeft, rfl⟩ := fromStint segment member
    obtain ⟨earlier, isEarlier, same⟩ := joined.label_mem isLeft
    exact ⟨earlier.2, isGiven earlier isEarlier, congrArg Prod.fst same⟩

/-- A detour is merged away over the gap on each side of it. -/
theorem quickDetour_presence : ∃ segment, ((quickDetour.smoothedOf (.odooId 1)).filter fun segment =>
    segment.Covers 660000000) = [segment] :=
  (smoothQuickPunches_presence quickDetour ⟨by decide, by decide⟩ (.odooId 1)).2.1 660000000
    ⟨minutes "Press" 1 10 12, by decide, by decide⟩

end PlantManager.Production

import PlantManager.Production.DisplayScores
import PlantManager.Ranking.Stable

/-! # Joining display scores conserves them

For each person the merged stints are groups of consecutive stints
(`Production.rowsOf_mergeScores`), so nothing is lost
(`Production.coalesce_conserves`). Where every stint of a person ends no
earlier than it starts, nothing is left to join
(`Production.coalesceDisplayScores_stable`).
-/

namespace PlantManager.Production

open Mapping Ranking

/-! ## The stints of one person -/

section Rows

variable {T : Type}

/-- The rows of a person. -/
def rowsOf (key : ScoreKey) (rows : List (SegmentScore T)) : List (SegmentScore T) :=
  rows.filter fun row => scoreKey row = key

theorem rowsOf_append (key : ScoreKey) (first second : List (SegmentScore T)) :
    rowsOf key (first ++ second) = rowsOf key first ++ rowsOf key second :=
  List.filter_append ..

theorem rowsOf_cons_self (row : SegmentScore T) (rest : List (SegmentScore T)) :
    rowsOf (scoreKey row) (row :: rest) = row :: rowsOf (scoreKey row) rest :=
  List.filter_cons_of_pos (decide_eq_true rfl)

theorem rowsOf_cons_other {key : ScoreKey} {row : SegmentScore T} (other : scoreKey row ≠ key)
    (rest : List (SegmentScore T)) : rowsOf key (row :: rest) = rowsOf key rest :=
  List.filter_cons_of_neg (by simpa using other)

theorem rowsOf_latest {key : ScoreKey} {front back : List (SegmentScore T)} {row : SegmentScore T}
    (same : scoreKey row = key) (later : rowsOf key back = []) :
    rowsOf key (front ++ row :: back) = rowsOf key front ++ [row] := by
  subst same
  rw [rowsOf_append, rowsOf_cons_self, later]

theorem rowsOf_concat (key : ScoreKey) (rows : List (SegmentScore T)) (score : SegmentScore T) :
    rowsOf key (rows ++ [score]) =
      if scoreKey score = key then rowsOf key rows ++ [score] else rowsOf key rows := by
  rw [rowsOf_append]
  by_cases same : scoreKey score = key
  · rw [if_pos same]
    subst same
    rw [rowsOf_cons_self]
    rfl
  · rw [if_neg same, rowsOf_cons_other same]
    exact List.append_nil _

/-- The position kept for a person is that of the latest merged stint. -/
def Indexed (state : Merging T) : Prop :=
  ∀ key, match state.latestByPerson.get key with
    | none => key ∉ state.merged.map scoreKey
    | some latest => ∃ front back, state.merged.map scoreKey = front ++ key :: back ∧
        front.length = latest ∧ key ∉ back

theorem rowsOf_eq_nil_iff {key : ScoreKey} {rows : List (SegmentScore T)} :
    rowsOf key rows = [] ↔ key ∉ rows.map scoreKey := by
  rw [rowsOf, List.filter_eq_nil_iff, List.mem_map, not_exists]
  exact forall_congr' fun row => by rw [decide_eq_true_iff, not_and]

theorem Indexed.append {state : Merging T} (indexed : Indexed state) (score : SegmentScore T) :
    Indexed
      { merged := state.merged ++ [score]
        latestByPerson := state.latestByPerson.alter (scoreKey score)
          fun _ => state.merged.length } := by
  intro key
  dsimp only
  rw [Dictionary.get_alter, List.map_append]
  by_cases same : key = scoreKey score
  · rw [if_pos same]
    refine ⟨state.merged.map scoreKey, [], by rw [same]; rfl, List.length_map _, List.not_mem_nil⟩
  · rw [if_neg same]
    have kept := indexed key
    cases found : state.latestByPerson.get key with
    | none =>
        rw [found] at kept
        exact fun member => (List.mem_append.mp member).elim kept
          fun last => same (List.mem_singleton.mp last)
    | some latest =>
        rw [found] at kept
        obtain ⟨front, back, listed, length, later⟩ := kept
        refine ⟨front, back ++ [scoreKey score], by rw [listed, List.append_assoc]; rfl, length, ?_⟩
        exact fun member => (List.mem_append.mp member).elim later
          fun last => same (List.mem_singleton.mp last)

theorem indexed_initial : Indexed (⟨[], ∅⟩ : Merging T) := fun _ => List.not_mem_nil

end Rows

variable {T : Type} [LinearOrder T]

/-- One more stint of a person. -/
def joinStep (ignoredGaps : List (T × T)) (rows : List (SegmentScore T)) (score : SegmentScore T) :
    List (SegmentScore T) :=
  match rows.getLast? with
  | none => rows ++ [score]
  | some last =>
      if canJoinDisplayScores ignoredGaps last score then
        rows.dropLast ++ [joinDisplayScores last score]
      else rows ++ [score]

def joinAll (ignoredGaps : List (T × T)) (rows : List (SegmentScore T)) : List (SegmentScore T) :=
  rows.foldl (joinStep ignoredGaps) []

theorem scoreKey_join (left right : SegmentScore T) :
    scoreKey (joinDisplayScores left right) = scoreKey left := rfl

/-- What `joinedLatest` finds. -/
theorem joinedLatest_cases (ignoredGaps : List (T × T)) {state : Merging T}
    (score : SegmentScore T) (indexed : Indexed state) :
    (rowsOf (scoreKey score) state.merged = [] ∧ joinedLatest ignoredGaps state score = none) ∨
    ∃ front row back, state.merged = front ++ row :: back ∧ scoreKey row = scoreKey score ∧
      rowsOf (scoreKey score) back = [] ∧
      joinedLatest ignoredGaps state score =
        if canJoinDisplayScores ignoredGaps row score then
          some (front.length, joinDisplayScores row score)
        else none := by
  have kept := indexed (scoreKey score)
  unfold joinedLatest
  cases found : state.latestByPerson.get (scoreKey score) with
  | none =>
      rw [found] at kept
      exact Or.inl ⟨rowsOf_eq_nil_iff.mpr kept, rfl⟩
  | some latest =>
      rw [found] at kept
      obtain ⟨frontKeys, backKeys, listed, rfl, later⟩ := kept
      obtain ⟨front, rest, whole, rfl, others⟩ := List.map_eq_append_iff.mp listed
      obtain ⟨row, back, rfl, same, rfl⟩ := List.map_eq_cons_iff.mp others
      refine Or.inr ⟨front, row, back, whole, same, rowsOf_eq_nil_iff.mpr later, ?_⟩
      have here : state.merged[(front.map scoreKey).length]? = some row := by
        rw [whole, List.length_map, List.getElem?_append_right le_rfl, Nat.sub_self]
        rfl
      rw [Option.bind_some, here, Option.bind_some, List.length_map]

/-- One step joins or appends the stint for its person, and leaves the others alone. -/
theorem mergeScore_spec (ignoredGaps : List (T × T)) {state : Merging T} (score : SegmentScore T)
    (indexed : Indexed state) :
    Indexed (mergeScore ignoredGaps state score) ∧
      ∀ key, rowsOf key (mergeScore ignoredGaps state score).merged =
        if scoreKey score = key then joinStep ignoredGaps (rowsOf key state.merged) score
        else rowsOf key state.merged := by
  unfold mergeScore
  rcases joinedLatest_cases ignoredGaps score indexed with
    ⟨nothing, none_⟩ | ⟨front, row, back, listed, same, later, found⟩
  · rw [none_]
    refine ⟨indexed.append score, fun key => ?_⟩
    rw [rowsOf_concat]
    split
    · next own =>
        subst own
        rw [nothing]
        rfl
    · rfl
  · have last : (rowsOf (scoreKey score) state.merged).getLast? = some row := by
      rw [listed, rowsOf_latest same later, List.getLast?_concat]
    rw [found]
    by_cases joins : canJoinDisplayScores ignoredGaps row score = true
    · rw [if_pos joins]
      dsimp only
      have replaced : state.merged.set front.length (joinDisplayScores row score) =
          front ++ joinDisplayScores row score :: back := by
        rw [listed, List.set_append_right _ _ le_rfl, Nat.sub_self, List.set_cons_zero]
      refine ⟨?_, fun key => ?_⟩
      · have keys : (front ++ joinDisplayScores row score :: back).map scoreKey =
            state.merged.map scoreKey := by
          rw [listed, List.map_append, List.map_append, List.map_cons, List.map_cons, scoreKey_join]
        intro key
        have kept := indexed key
        rw [replaced]
        rw [keys]
        exact kept
      · rw [replaced]
        split
        · next own =>
            subst own
            rw [joinStep, last, listed, rowsOf_latest same later, rowsOf_latest _ later,
              List.dropLast_concat]
            · dsimp only
              rw [if_pos joins]
            · exact same
        · next other =>
            rw [listed, rowsOf_append, rowsOf_append, rowsOf_cons_other, rowsOf_cons_other]
            · rw [same]
              exact other
            · rw [scoreKey_join, same]
              exact other
    · rw [if_neg joins]
      refine ⟨indexed.append score, fun key => ?_⟩
      rw [rowsOf_concat]
      split
      · next own =>
          subst own
          rw [joinStep, last]
          dsimp only
          rw [if_neg joins]
      · rfl

/-- The merged stints of a person come from the stints of that person alone. -/
theorem rowsOf_mergeScores (ignoredGaps : List (T × T)) (named : List (SegmentScore T))
    (key : ScoreKey) :
    rowsOf key (mergeScores ignoredGaps named).merged = joinAll ignoredGaps (rowsOf key named) := by
  have extended : ∀ state : Merging T, Indexed state →
      rowsOf key (named.foldl (mergeScore ignoredGaps) state).merged =
        (rowsOf key named).foldl (joinStep ignoredGaps) (rowsOf key state.merged) := by
    induction named with
    | nil => exact fun _ _ => rfl
    | cons score rest ih =>
        intro state indexed
        obtain ⟨kept, rows⟩ := mergeScore_spec ignoredGaps score indexed
        rw [List.foldl_cons, ih _ kept, rows]
        by_cases same : scoreKey score = key
        · rw [if_pos same]
          subst same
          rw [rowsOf_cons_self, List.foldl_cons]
        · rw [if_neg same, rowsOf_cons_other same]
  exact extended _ indexed_initial

/-! ## Groups of stints -/

/-- A row that joins some stints of a person, each over a gap that is empty or ignored. -/
inductive Joined (ignoredGaps : List (T × T)) : List (SegmentScore T) → SegmentScore T → Prop
  | single (score) : Joined ignoredGaps [score] score
  | join {group row score stop start} (earlier : Joined ignoredGaps group row)
      (same : scoreKey row = scoreKey score) (ended : row.stop = some stop)
      (started : score.start = some start) (ignored : GapIsIgnored stop start ignoredGaps) :
      Joined ignoredGaps (group ++ [score]) (joinDisplayScores row score)

theorem gapBetween_eq_true_iff {ignoredGaps : List (T × T)} {left right : SegmentScore T} :
    gapBetween ignoredGaps left right = true ↔ ∃ stop start, left.stop = some stop ∧
      right.start = some start ∧ GapIsIgnored stop start ignoredGaps := by
  unfold gapBetween
  cases left.stop <;> cases right.start <;> simp

theorem canJoin_eq_true_iff {ignoredGaps : List (T × T)} {left right : SegmentScore T} :
    canJoinDisplayScores ignoredGaps left right = true ↔ left.personName.isSome = true ∧
      scoreKey left = scoreKey right ∧ left.wcName = right.wcName ∧
      gapBetween ignoredGaps left right = true := by
  simp only [canJoinDisplayScores, Bool.and_eq_true, decide_eq_true_iff, scoreKey, Prod.mk.injEq,
    and_assoc]

theorem forall₂_joinAll (ignoredGaps : List (T × T)) (rows : List (SegmentScore T)) :
    ∃ groups, groups.flatten = rows ∧
      List.Forall₂ (Joined ignoredGaps) groups (joinAll ignoredGaps rows) := by
  induction rows using List.reverseRecOn with
  | nil => exact ⟨[], rfl, .nil⟩
  | append_singleton rows score ih =>
      obtain ⟨groups, flat, joined⟩ := ih
      have alone : List.Forall₂ (Joined ignoredGaps) (groups ++ [[score]])
          (joinAll ignoredGaps rows ++ [score]) := List.rel_append joined (.cons (.single score) .nil)
      have flattened : (groups ++ [[score]]).flatten = rows ++ [score] := by
        rw [List.flatten_append, flat, List.flatten_singleton]
      rw [joinAll, List.foldl_append, List.foldl_cons, List.foldl_nil, ← joinAll, joinStep]
      rcases List.eq_nil_or_concat' (joinAll ignoredGaps rows) with empty | ⟨front, last, listed⟩
      · rw [empty] at alone ⊢
        exact ⟨_, flattened, alone⟩
      · rw [listed] at joined alone ⊢
        rw [List.getLast?_concat]
        dsimp only
        split
        · next joins =>
            rw [List.dropLast_concat]
            have frontJoined := List.forall₂_take_append groups front [last] joined
            have lastJoined := List.forall₂_drop_append groups front [last] joined
            have parts := List.take_append_drop front.length groups
            generalize groups.take front.length = frontGroups at frontJoined parts
            generalize groups.drop front.length = lastGroups at lastJoined parts
            obtain ⟨-, same, -, between⟩ := canJoin_eq_true_iff.mp joins
            obtain ⟨stop, start, ended, started, ignored⟩ := gapBetween_eq_true_iff.mp between
            cases lastJoined with
            | @cons group _ _ _ own rest =>
                cases rest
                refine ⟨frontGroups ++ [group ++ [score]], ?_, ?_⟩
                · rw [List.flatten_append, List.flatten_singleton, ← flat, ← parts,
                    List.flatten_append, List.flatten_singleton, List.append_assoc]
                · exact List.rel_append frontJoined
                    (.cons (own.join same ended started ignored) .nil)
        · exact ⟨_, flattened, alone⟩

/-! ## What is conserved -/

variable {groups : List (List (SegmentScore T))} {named : List (SegmentScore T)}
  {row : SegmentScore T}

/-- An amount that joining adds up is that of the joined stints. -/
theorem sum_of_joined {ignoredGaps : List (T × T)} (amount : SegmentScore T → ℚ)
    (adds : ∀ left right, amount (joinDisplayScores left right) = amount left + amount right)
    {rows : List (SegmentScore T)} (joined : List.Forall₂ (Joined ignoredGaps) groups rows) :
    (rows.map amount).sum = (groups.flatten.map amount).sum := by
  have each : ∀ {group row}, Joined ignoredGaps group row → amount row = (group.map amount).sum := by
    intro group row joined
    induction joined with
    | single score => simp
    | join _ _ _ _ _ ih => rw [adds, ih, List.map_append, List.sum_append, List.map_singleton,
        List.sum_singleton]
  induction joined with
  | nil => rfl
  | cons own _ ih =>
      rw [List.map_cons, List.sum_cons, List.flatten_cons, List.map_append, List.sum_append, ih,
        each own]

theorem unitPoints_of_joined {ignoredGaps : List (T × T)} {rows : List (SegmentScore T)}
    (joined : List.Forall₂ (Joined ignoredGaps) groups rows) :
    (rows.flatMap SegmentScore.unitPoints).Perm
      (groups.flatten.flatMap SegmentScore.unitPoints) := by
  have each : ∀ {group row}, Joined ignoredGaps group row →
      row.unitPoints.Perm (group.flatMap SegmentScore.unitPoints) := by
    intro group row joined
    induction joined with
    | single score => rw [List.flatMap_singleton]
    | @join _ row score _ _ _ _ _ _ _ ih =>
        rw [List.flatMap_append, List.flatMap_singleton]
        exact (sortBy_perm CreditedUnitPoint.atUtc _).trans (ih.append_right score.unitPoints)
  induction joined with
  | nil => exact .refl _
  | cons own _ ih =>
      rw [List.flatMap_cons, List.flatten_cons, List.flatMap_append]
      exact (each own).append ih

omit [LinearOrder T] in
theorem rowsOf_namedOf {key : ScoreKey} (named : key.1.isSome = true)
    (scores : List (SegmentScore T)) : rowsOf key (namedOf scores) = rowsOf key scores := by
  rw [rowsOf, namedOf, List.filter_filter, rowsOf]
  refine List.filter_congr fun row _ => ?_
  by_cases same : scoreKey row = key
  · have isNamed : row.personName.isSome = true := by
      rw [← same] at named
      exact named
    rw [isNamed, Bool.and_true]
  · rw [decide_eq_false same, Bool.false_and]

omit [LinearOrder T] in
theorem rowsOf_unassignedOf {key : ScoreKey} (named : key.1.isSome = true)
    (scores : List (SegmentScore T)) : rowsOf key (unassignedOf scores) = [] := by
  refine rowsOf_eq_nil_iff.mpr fun member => ?_
  obtain ⟨row, unassigned, rfl⟩ := List.mem_map.mp member
  have nobody := (List.mem_filter.mp unassigned).2
  rw [Option.isNone_iff_eq_none] at nobody
  rw [scoreKey, nobody] at named
  cases named

/-- The stints of a person, in the order of the result. -/
theorem rowsOf_coalesce (ignoredGaps : List (T × T)) (scores : List (SegmentScore T))
    {key : ScoreKey} (named : key.1.isSome = true) :
    rowsOf key (coalesceDisplayScores ignoredGaps scores) =
      sortBy scoreOrder (joinAll ignoredGaps (sortBy scoreOrder (rowsOf key scores))) := by
  have own : rowsOf key (sortBy scoreOrder (namedOf scores)) =
      sortBy scoreOrder (rowsOf key (namedOf scores)) := filter_sortBy _ _
  rw [coalesceDisplayScores, rowsOf, filter_sortBy, ← rowsOf, rowsOf_append, rowsOf_mergeScores, own,
    rowsOf_namedOf named, rowsOf_unassignedOf named, List.append_nil]

/-- Of each person, the stints are groups of consecutive ones, and the amounts are those before. -/
structure Conserves (ignoredGaps : List (T × T)) (scores result : List (SegmentScore T))
    (key : ScoreKey) : Prop where
  groups : ∃ groups rows, rows.Perm (rowsOf key result) ∧
    groups.flatten = sortBy scoreOrder (rowsOf key scores) ∧
    List.Forall₂ (Joined ignoredGaps) groups rows
  actualUnits : ((rowsOf key result).map SegmentScore.actualUnits).sum =
    ((rowsOf key scores).map SegmentScore.actualUnits).sum
  goalUnits : ((rowsOf key result).map SegmentScore.goalUnits).sum =
    ((rowsOf key scores).map SegmentScore.goalUnits).sum
  productiveMinutes : ((rowsOf key result).map SegmentScore.productiveMinutes).sum =
    ((rowsOf key scores).map SegmentScore.productiveMinutes).sum
  unitPoints : ((rowsOf key result).flatMap SegmentScore.unitPoints).Perm
    ((rowsOf key scores).flatMap SegmentScore.unitPoints)

theorem coalesce_conserves (ignoredGaps : List (T × T)) (scores : List (SegmentScore T))
    {key : ScoreKey} (named : key.1.isSome = true) :
    Conserves ignoredGaps scores (coalesceDisplayScores ignoredGaps scores) key := by
  obtain ⟨groups, flat, joined⟩ :=
    forall₂_joinAll ignoredGaps (sortBy scoreOrder (rowsOf key scores))
  have rows : (joinAll ignoredGaps (sortBy scoreOrder (rowsOf key scores))).Perm
      (rowsOf key (coalesceDisplayScores ignoredGaps scores)) := by
    rw [rowsOf_coalesce ignoredGaps scores named]
    exact (sortBy_perm _ _).symm
  have stints : groups.flatten.Perm (rowsOf key scores) := flat ▸ sortBy_perm _ _
  have amounts : ∀ amount : SegmentScore T → ℚ,
      (∀ left right, amount (joinDisplayScores left right) = amount left + amount right) →
      ((rowsOf key (coalesceDisplayScores ignoredGaps scores)).map amount).sum =
        ((rowsOf key scores).map amount).sum := by
    intro amount adds
    rw [← (rows.map amount).sum_eq, sum_of_joined amount adds joined, (stints.map amount).sum_eq]
  refine ⟨⟨groups, _, rows, flat, joined⟩, ?_, ?_, ?_, ?_⟩
  · exact amounts SegmentScore.actualUnits fun _ _ => rfl
  · exact amounts SegmentScore.goalUnits fun _ _ => rfl
  · exact amounts SegmentScore.productiveMinutes fun _ _ => rfl
  · exact (rows.symm.flatMap_right _).trans
      ((unitPoints_of_joined joined).trans (stints.flatMap_right _))

theorem named_of_mem_mergeScores {ignoredGaps : List (T × T)}
    (all : ∀ row ∈ named, row.personName.isSome = true)
    (member : row ∈ (mergeScores ignoredGaps named).merged) : row.personName.isSome = true := by
  by_contra nobody
  have own : row ∈ rowsOf (scoreKey row) (mergeScores ignoredGaps named).merged :=
    List.mem_filter.mpr ⟨member, decide_eq_true rfl⟩
  have nothing : rowsOf (scoreKey row) named = [] := by
    refine rowsOf_eq_nil_iff.mpr fun found => ?_
    obtain ⟨other, listed, same⟩ := List.mem_map.mp found
    exact nobody ((Prod.mk.inj same).1 ▸ all other listed)
  rw [rowsOf_mergeScores, nothing] at own
  exact absurd own List.not_mem_nil

variable {scores : List (SegmentScore T)}

theorem isSome_of_mem_named (member : row ∈ sortBy scoreOrder (namedOf scores)) :
    row.personName.isSome = true :=
  (List.mem_filter.mp ((mem_sortBy _).mp member)).2

/-- The merged stints are those of people. -/
theorem namedOf_merged (ignoredGaps : List (T × T)) (scores : List (SegmentScore T)) :
    namedOf (mergeScores ignoredGaps (sortBy scoreOrder (namedOf scores))).merged =
      (mergeScores ignoredGaps (sortBy scoreOrder (namedOf scores))).merged :=
  List.filter_eq_self.mpr fun _ member =>
    named_of_mem_mergeScores (fun _ => isSome_of_mem_named) member

theorem unassignedOf_merged (ignoredGaps : List (T × T)) (scores : List (SegmentScore T)) :
    unassignedOf (mergeScores ignoredGaps (sortBy scoreOrder (namedOf scores))).merged = [] := by
  refine List.filter_eq_nil_iff.mpr fun row member nobody => ?_
  rw [Option.isNone_iff_eq_none] at nobody
  have named := named_of_mem_mergeScores (fun _ => isSome_of_mem_named) member
  rw [nobody] at named
  cases named

omit [LinearOrder T] in
theorem unassignedOf_unassignedOf (scores : List (SegmentScore T)) :
    unassignedOf (unassignedOf scores) = unassignedOf scores :=
  List.filter_eq_self.mpr fun _ member => (List.mem_filter.mp member).2

omit [LinearOrder T] in
theorem namedOf_unassignedOf (scores : List (SegmentScore T)) :
    namedOf (unassignedOf scores) = [] := by
  refine List.filter_eq_nil_iff.mpr fun row member named => ?_
  rw [Option.isNone_iff_eq_none.mp (List.mem_filter.mp member).2] at named
  cases named

/-- Unassigned rows are those before. -/
theorem unassignedOf_coalesce (ignoredGaps : List (T × T)) (scores : List (SegmentScore T)) :
    unassignedOf (coalesceDisplayScores ignoredGaps scores) =
      sortBy scoreOrder (unassignedOf scores) := by
  rw [coalesceDisplayScores, unassignedOf, filter_sortBy, List.filter_append, ← unassignedOf,
    unassignedOf_merged, ← unassignedOf, unassignedOf_unassignedOf, List.nil_append]

/-! ## Nothing left to join -/

/-- A row with a start ends, and no earlier. -/
def WellTimed (row : SegmentScore T) : Prop :=
  ∀ start, row.start = some start → ∃ stop, row.stop = some stop ∧ start ≤ stop

/-- A row starts before another one, or neither has a start. -/
def Precedes (first second : SegmentScore T) : Prop :=
  startOrTop first.start < startOrTop second.start ∨
    (second.start = none ∧ scoreOrder first ≤ scoreOrder second)

/-- A row that was merged comes before a stint that was not. -/
def Below (row score : SegmentScore T) : Prop :=
  startOrTop row.start ≤ startOrTop score.start ∧
    (row.start = none → scoreOrder row ≤ scoreOrder score)

theorem below_of_le {score : SegmentScore T} (ordered : scoreOrder row ≤ scoreOrder score) :
    Below row score := by
  refine ⟨?_, fun _ => ordered⟩
  rcases Prod.Lex.toLex_le_toLex.mp ordered with before | same
  · exact before.le
  · exact same.1.le

theorem Precedes.le {first second : SegmentScore T} (precedes : Precedes first second) :
    scoreOrder first ≤ scoreOrder second := by
  rcases precedes with before | same
  · exact Prod.Lex.toLex_le_toLex.mpr (Or.inl before)
  · exact same.2

/-- The merged stints of one person so far. -/
structure StintsApart (ignoredGaps : List (T × T)) (key : ScoreKey) (station : String)
    (rows : List (SegmentScore T)) : Prop where
  own : ∀ row ∈ rows, scoreKey row = key ∧ row.wcName = station
  timed : ∀ row ∈ rows, WellTimed row
  ordered : rows.Pairwise Precedes
  apart : rows.IsChain fun first second => canJoinDisplayScores ignoredGaps first second = false

section Steps

variable {ignoredGaps : List (T × T)} {key : ScoreKey} {station : String}

variable {last score : SegmentScore T} {rows : List (SegmentScore T)}

/-- A stint that cannot be joined starts later than the one before. -/
theorem precedes_of_not_canJoin (named : key.1.isSome = true)
    (lastOwn : scoreKey last = key ∧ last.wcName = station)
    (scoreOwn : scoreKey score = key ∧ score.wcName = station) (timed : WellTimed last)
    (below : Below last score) (apart : canJoinDisplayScores ignoredGaps last score = false) :
    Precedes last score := by
  cases started : score.start with
  | none =>
      cases lastStarted : last.start with
      | none => exact Or.inr ⟨started, below.2 lastStarted⟩
      | some begin_ =>
          refine Or.inl ?_
          rw [started, lastStarted]
          exact WithTop.coe_lt_top begin_
  | some start =>
      refine Or.inl (lt_of_le_of_ne below.1 fun same => ?_)
      have lastStarted : last.start = some start := same.trans started
      obtain ⟨stop, ended, ordered⟩ := timed start lastStarted
      refine absurd (canJoin_eq_true_iff.mpr ⟨?_, ?_, ?_, ?_⟩) (Bool.eq_false_iff.mp apart)
      · rw [← lastOwn.1] at named
        exact named
      · rw [lastOwn.1, scoreOwn.1]
      · rw [lastOwn.2, scoreOwn.2]
      · exact gapBetween_eq_true_iff.mpr ⟨stop, start, ended, started, Or.inl ordered⟩

/-- A joined row starts when the first of the two does. -/
theorem start_join (below : Below last score) {start : T} (started : score.start = some start) :
    (joinDisplayScores last score).start = last.start ∧ last.start ≠ none := by
  have ordered := below.1
  rw [started] at ordered
  change chooseSome min last.start score.start = last.start ∧ _
  rw [started]
  cases lastStarted : last.start with
  | none =>
      rw [lastStarted] at ordered
      exact absurd ordered (not_le.mpr (WithTop.coe_lt_top start))
  | some begin_ =>
      rw [lastStarted] at ordered
      have sooner : begin_ ≤ start := WithTop.coe_le_coe.mp ordered
      exact ⟨congrArg some (min_eq_left sooner), nofun⟩

theorem wellTimed_join (timed : WellTimed last)
    (same : (joinDisplayScores last score).start = last.start) :
    WellTimed (joinDisplayScores last score) := by
  intro start started
  rw [same] at started
  obtain ⟨stop, ended, ordered⟩ := timed start started
  change ∃ later, chooseSome max last.stop score.stop = some later ∧ start ≤ later
  rw [ended]
  cases score.stop with
  | none => exact ⟨stop, rfl, ordered⟩
  | some other => exact ⟨max stop other, rfl, ordered.trans (le_max_left _ _)⟩

theorem StintsApart.append {rows : List (SegmentScore T)} {score : SegmentScore T}
    (settled : StintsApart ignoredGaps key station rows)
    (own : scoreKey score = key ∧ score.wcName = station) (timed : WellTimed score)
    (before : ∀ row ∈ rows, Precedes row score)
    (apart : ∀ last ∈ rows.getLast?, canJoinDisplayScores ignoredGaps last score = false) :
    StintsApart ignoredGaps key station (rows ++ [score]) where
  own := by
    rw [List.forall_mem_append, List.forall_mem_singleton]
    exact ⟨settled.own, own⟩
  timed := by
    rw [List.forall_mem_append, List.forall_mem_singleton]
    exact ⟨settled.timed, timed⟩
  ordered := by
    refine List.pairwise_append.mpr ⟨settled.ordered, List.pairwise_singleton _ _, ?_⟩
    intro row member other isOther
    rw [List.mem_singleton.mp isOther]
    exact before row member
  apart := by
    refine List.isChain_append.mpr ⟨settled.apart, List.isChain_singleton _, ?_⟩
    intro last isLast other isOther
    rw [List.head?_cons, Option.mem_some_iff] at isOther
    rw [← isOther]
    exact apart last isLast

theorem StintsApart.of_concat {front : List (SegmentScore T)}
    (settled : StintsApart ignoredGaps key station (front ++ [last])) :
    StintsApart ignoredGaps key station front ∧ (∀ row ∈ front, Precedes row last) ∧
      ∀ before ∈ front.getLast?, canJoinDisplayScores ignoredGaps before last = false := by
  obtain ⟨own, timed, ordered, apart⟩ := settled
  rw [List.forall_mem_append] at own timed
  rw [List.pairwise_append] at ordered
  rw [List.isChain_append] at apart
  refine ⟨⟨own.1, timed.1, ordered.1, apart.1⟩, fun row member => ?_, fun before isBefore => ?_⟩
  · exact ordered.2.2 row member last (List.mem_singleton_self last)
  · exact apart.2.2 before isBefore last rfl

theorem Precedes.trans {first second third : SegmentScore T} (one : Precedes first second)
    (other : Precedes second third) : Precedes first third := by
  rcases other with later | ⟨noStart, ordered⟩
  · rcases one with before | ⟨noStart, -⟩
    · exact Or.inl (before.trans later)
    · rw [noStart] at later
      exact absurd later not_top_lt
  · exact Or.inr ⟨noStart, one.le.trans ordered⟩

/-- One more stint keeps the merged stints of its person settled. -/
theorem StintsApart.joinStep (named : key.1.isSome = true)
    (settled : StintsApart ignoredGaps key station rows)
    (own : scoreKey score = key ∧ score.wcName = station) (timed : WellTimed score)
    (below : ∀ row ∈ rows, Below row score) :
    StintsApart ignoredGaps key station (joinStep ignoredGaps rows score) := by
  unfold Production.joinStep
  rcases List.eq_nil_or_concat' rows with rfl | ⟨front, last, rfl⟩
  · exact settled.append own timed (fun _ member => absurd member List.not_mem_nil)
      fun _ member => nomatch member
  · obtain ⟨frontStintsApart, before, frontApart⟩ := settled.of_concat
    have isLast : last ∈ front ++ [last] := List.mem_append_right front (List.mem_singleton_self last)
    rw [List.getLast?_concat]
    dsimp only
    split
    · next joins =>
        obtain ⟨-, -, -, between⟩ := canJoin_eq_true_iff.mp joins
        obtain ⟨-, start, -, started, -⟩ := gapBetween_eq_true_iff.mp between
        obtain ⟨sameStart, begun⟩ := start_join (below last isLast) started
        rw [List.dropLast_concat]
        refine frontStintsApart.append (settled.own last isLast)
          (wellTimed_join (settled.timed last isLast) sameStart) (fun row member => ?_) ?_
        · refine Or.inl ?_
          rw [sameStart]
          exact (before row member).resolve_right fun noStart => begun noStart.1
        · intro row isBefore
          have apart := frontApart row isBefore
          rw [canJoinDisplayScores, gapBetween] at apart ⊢
          rw [sameStart]
          exact apart
    · next refused =>
        have apart := Bool.eq_false_iff.mpr refused
        have next_ := precedes_of_not_canJoin named (settled.own last isLast) own
          (settled.timed last isLast) (below last isLast) apart
        refine settled.append own timed (fun row member => ?_) fun other isOther => ?_
        · rcases List.mem_append.mp member with earlier | isLast
          · exact (before row earlier).trans next_
          · rw [List.mem_singleton.mp isLast]
            exact next_
        · rw [List.getLast?_concat] at isOther
          rw [← Option.some.inj isOther]
          exact apart

theorem below_joinStep {later : SegmentScore T}
    (below : ∀ row ∈ rows, Below row score ∧ Below row later)
    (ordered : scoreOrder score ≤ scoreOrder later) :
    ∀ row ∈ joinStep ignoredGaps rows score, Below row later := by
  unfold joinStep
  rcases List.eq_nil_or_concat' rows with rfl | ⟨front, last, rfl⟩
  · exact List.forall_mem_singleton.mpr (below_of_le ordered)
  · rw [List.forall_mem_append, List.forall_mem_singleton] at below
    rw [List.getLast?_concat]
    dsimp only
    split
    · next joins =>
        obtain ⟨-, -, -, between⟩ := canJoin_eq_true_iff.mp joins
        obtain ⟨-, start, -, started, -⟩ := gapBetween_eq_true_iff.mp between
        obtain ⟨sameStart, begun⟩ := start_join below.2.1 started
        rw [List.dropLast_concat, List.forall_mem_append, List.forall_mem_singleton]
        refine ⟨fun row member => (below.1 row member).2, ?_, fun noStart => ?_⟩
        · rw [sameStart]
          exact below.2.2.1
        · exact absurd (sameStart.symm.trans noStart) begun
    · rw [List.forall_mem_append, List.forall_mem_append, List.forall_mem_singleton,
        List.forall_mem_singleton]
      exact ⟨⟨fun row member => (below.1 row member).2, below.2.2⟩, below_of_le ordered⟩

theorem stintsApart_foldl {scores : List (SegmentScore T)} (named : key.1.isSome = true)
    (settled : StintsApart ignoredGaps key station rows)
    (own : ∀ score ∈ scores, scoreKey score = key ∧ score.wcName = station)
    (timed : ∀ score ∈ scores, WellTimed score)
    (sorted : scores.Pairwise fun first second => scoreOrder first ≤ scoreOrder second)
    (below : ∀ row ∈ rows, ∀ score ∈ scores, Below row score) :
    StintsApart ignoredGaps key station (scores.foldl (joinStep ignoredGaps) rows) := by
  induction scores generalizing rows with
  | nil => exact settled
  | cons score rest ih =>
      rw [List.forall_mem_cons] at own timed
      rw [List.pairwise_cons] at sorted
      refine ih ?_ own.2 timed.2 sorted.2 ?_
      · exact settled.joinStep named own.1 timed.1 fun row member =>
          below row member score List.mem_cons_self
      · intro row member later isLater
        refine below_joinStep (fun row member => ⟨?_, ?_⟩) (sorted.1 later isLater) row member
        · exact below row member score List.mem_cons_self
        · exact below row member later (List.mem_cons_of_mem _ isLater)

end Steps

/-- The merged stints of a person at one station are in order, with nothing left to join. -/
theorem stintsApart_joinAll (ignoredGaps : List (T × T)) {key : ScoreKey} {station : String}
    (named : key.1.isSome = true) (own : ∀ score ∈ scores, score.wcName = station)
    (timed : ∀ score ∈ scores, score.personName.isSome = true → WellTimed score) :
    StintsApart ignoredGaps key station
      (joinAll ignoredGaps (sortBy scoreOrder (rowsOf key scores))) := by
  have of_mem : ∀ score ∈ sortBy scoreOrder (rowsOf key scores),
      score ∈ scores ∧ scoreKey score = key := by
    intro score member
    obtain ⟨listed, same⟩ := List.mem_filter.mp ((mem_sortBy scoreOrder).mp member)
    exact ⟨listed, of_decide_eq_true same⟩
  refine stintsApart_foldl named ?_ (fun score member => ?_) (fun score member => ?_)
    (pairwise_sortBy scoreOrder _) fun _ member => absurd member List.not_mem_nil
  · exact ⟨fun _ member => absurd member List.not_mem_nil,
      fun _ member => absurd member List.not_mem_nil, .nil, .nil⟩
  · obtain ⟨listed, same⟩ := of_mem score member
    exact ⟨same, own score listed⟩
  · obtain ⟨listed, same⟩ := of_mem score member
    refine timed score listed ?_
    rw [← same] at named
    exact named

theorem rowsOf_coalesce_of_timed (ignoredGaps : List (T × T)) {key : ScoreKey} {station : String}
    (named : key.1.isSome = true) (own : ∀ score ∈ scores, score.wcName = station)
    (timed : ∀ score ∈ scores, score.personName.isSome = true → WellTimed score) :
    rowsOf key (coalesceDisplayScores ignoredGaps scores) =
      joinAll ignoredGaps (sortBy scoreOrder (rowsOf key scores)) := by
  rw [rowsOf_coalesce ignoredGaps scores named]
  exact sortBy_eq_self ((stintsApart_joinAll ignoredGaps named own timed).ordered.imp Precedes.le)

/-! ## Joining once more -/

theorem indexed_mergeScores (ignoredGaps : List (T × T)) (named : List (SegmentScore T)) :
    Indexed (mergeScores ignoredGaps named) :=
  List.foldlRecOn (motive := Indexed) _ _ indexed_initial fun _ indexed score _ =>
    (mergeScore_spec ignoredGaps score indexed).1

/-- Stints of which no person has two that can be joined stay as they are. -/
theorem merged_of_apart {ignoredGaps : List (T × T)}
    (apart : ∀ key, (rowsOf key named).IsChain fun first second =>
      canJoinDisplayScores ignoredGaps first second = false) :
    (mergeScores ignoredGaps named).merged = named := by
  induction named using List.reverseRecOn with
  | nil => rfl
  | append_singleton rows score ih =>
      have earlier : (mergeScores ignoredGaps rows).merged = rows := by
        refine ih fun key => ?_
        have chain := apart key
        rw [rowsOf_append] at chain
        exact (List.isChain_append.mp chain).1
      have stays : joinedLatest ignoredGaps (mergeScores ignoredGaps rows) score = none := by
        rcases joinedLatest_cases ignoredGaps score (indexed_mergeScores ignoredGaps rows) with
          ⟨-, none_⟩ | ⟨front, row, back, listed, same, later, found⟩
        · exact none_
        · have chain := apart (scoreKey score)
          rw [earlier] at listed
          rw [rowsOf_append, listed, rowsOf_latest same later, rowsOf_cons_self] at chain
          have last := (List.isChain_append.mp chain).2.2 row
            (List.getLast?_concat ..) score rfl
          rw [found, last]
          rfl
      rw [mergeScores, List.foldl_append, List.foldl_cons, List.foldl_nil, ← mergeScores, mergeScore,
        stays]
      rw [earlier]

/-- A result in which no person has stints left to join is its own result. -/
theorem coalesce_idempotent {ignoredGaps : List (T × T)}
    (apart : ∀ key : ScoreKey, key.1.isSome = true →
      (rowsOf key (coalesceDisplayScores ignoredGaps scores)).IsChain fun first second =>
        canJoinDisplayScores ignoredGaps first second = false) :
    coalesceDisplayScores ignoredGaps (coalesceDisplayScores ignoredGaps scores) =
      coalesceDisplayScores ignoredGaps scores := by
  let result := coalesceDisplayScores ignoredGaps scores
  let merged := (mergeScores ignoredGaps (sortBy scoreOrder (namedOf scores))).merged
  have sorted : sortBy scoreOrder (namedOf result) = namedOf result :=
    sortBy_eq_self ((pairwise_sortBy scoreOrder _).filter _)
  have again : (mergeScores ignoredGaps (namedOf result)).merged = namedOf result := by
    refine merged_of_apart fun key => ?_
    by_cases named : key.1.isSome = true
    · rw [rowsOf_namedOf named]
      exact apart key named
    · have nothing : rowsOf key (namedOf result) = [] := by
        refine rowsOf_eq_nil_iff.mpr fun member => ?_
        obtain ⟨row, listed, rfl⟩ := List.mem_map.mp member
        exact named (List.mem_filter.mp listed).2
      rw [nothing]
      exact .nil
  have people : namedOf result = sortBy scoreOrder merged := by
    change (sortBy scoreOrder (merged ++ unassignedOf scores)).filter _ = _
    rw [filter_sortBy, List.filter_append, ← namedOf, namedOf_merged, ← namedOf,
      namedOf_unassignedOf, List.append_nil]
  rw [coalesceDisplayScores, sorted, again, unassignedOf_coalesce, people]
  refine sortBy_eq_of_filter_key_eq fun value => ?_
  rw [List.filter_append, List.filter_append, filter_key_sortBy, filter_key_sortBy]

/-! ## The order of the scores -/

/-- Scores of distinct keys have the same result in any order. -/
theorem coalesce_perm (ignoredGaps : List (T × T)) {others : List (SegmentScore T)}
    (distinct : (scores.map scoreOrder).Nodup) (same : scores.Perm others) :
    coalesceDisplayScores ignoredGaps scores = coalesceDisplayScores ignoredGaps others := by
  have named : sortBy scoreOrder (namedOf scores) = sortBy scoreOrder (namedOf others) := by
    refine sortBy_eq_of_perm scoreOrder ?_ (same.filter _)
    exact distinct.sublist (List.filter_sublist.map _)
  have unassigned : sortBy scoreOrder (unassignedOf scores) =
      sortBy scoreOrder (unassignedOf others) := by
    refine sortBy_eq_of_perm scoreOrder ?_ (same.filter _)
    exact distinct.sublist (List.filter_sublist.map _)
  rw [coalesceDisplayScores, coalesceDisplayScores, named]
  refine sortBy_eq_of_filter_key_eq fun value => ?_
  rw [List.filter_append, List.filter_append, ← filter_key_sortBy scoreOrder (unassignedOf scores),
    unassigned, filter_key_sortBy]

/-- Joining the scores of one station conserves what each person did and keeps unassigned rows.
Where stints that start also end, and no earlier, nothing is left to join and joining once more
changes nothing. Scores of distinct keys may come in any order. -/
theorem coalesceDisplayScores_stable (ignoredGaps : List (T × T)) (scores : List (SegmentScore T))
    (station : String) (own : ∀ score ∈ scores, score.wcName = station) :
    (∀ name odooId, Conserves ignoredGaps scores (coalesceDisplayScores ignoredGaps scores)
      (some name, odooId)) ∧
    (unassignedOf (coalesceDisplayScores ignoredGaps scores)).Perm (unassignedOf scores) ∧
    ((∀ score ∈ scores, score.personName.isSome = true → WellTimed score) →
      (∀ name odooId, (rowsOf (some name, odooId)
        (coalesceDisplayScores ignoredGaps scores)).IsChain fun first second =>
          canJoinDisplayScores ignoredGaps first second = false) ∧
      coalesceDisplayScores ignoredGaps (coalesceDisplayScores ignoredGaps scores) =
        coalesceDisplayScores ignoredGaps scores) ∧
    ((scores.map scoreOrder).Nodup → ∀ others, scores.Perm others →
      coalesceDisplayScores ignoredGaps others = coalesceDisplayScores ignoredGaps scores) := by
  refine ⟨fun name odooId => coalesce_conserves ignoredGaps scores rfl, ?_, fun timed => ?_,
    fun distinct others same => (coalesce_perm ignoredGaps distinct same).symm⟩
  · rw [unassignedOf_coalesce]
    exact sortBy_perm scoreOrder _
  · have apart : ∀ key : ScoreKey, key.1.isSome = true →
        (rowsOf key (coalesceDisplayScores ignoredGaps scores)).IsChain fun first second =>
          canJoinDisplayScores ignoredGaps first second = false := by
      intro key named
      rw [rowsOf_coalesce_of_timed ignoredGaps named own timed]
      exact (stintsApart_joinAll ignoredGaps named own timed).apart
    exact ⟨fun name odooId => apart (some name, odooId) rfl, coalesce_idempotent apart⟩

/-- Six units of Ann at the saw. -/
def stintAtSaw (segmentId : ℤ) (start : ℕ) (stop : Option ℕ) : SegmentScore ℕ where
  segmentId := segmentId
  wcName := "Saw"
  personName := some "Ann"
  start := some start
  stop := stop
  source := "punch"
  productiveMinutes := 10
  actualUnits := 6
  goalUnits := 5
  runwayUnits := 6
  isActive := false
  result := .ahead
  personOdooId := none
  unitPoints := [⟨start, 6⟩]

/-- A stint without an end is put behind a joined one that starts with it, and joined next time. -/
theorem open_stint_joins_later :
    coalesceDisplayScores []
        (coalesceDisplayScores [] [stintAtSaw 5 0 none, stintAtSaw 7 0 (some 10),
          stintAtSaw 3 10 (some 20)]) ≠
      coalesceDisplayScores [] [stintAtSaw 5 0 none, stintAtSaw 7 0 (some 10),
        stintAtSaw 3 10 (some 20)] := by
  decide +kernel

theorem break_joined :
    Conserves [(10, 12)] [stintAtSaw 1 0 (some 10), stintAtSaw 2 12 (some 20)]
        (coalesceDisplayScores [(10, 12)] [stintAtSaw 1 0 (some 10), stintAtSaw 2 12 (some 20)])
        (some "Ann", none) ∧
      coalesceDisplayScores [(10, 12)] (coalesceDisplayScores [(10, 12)]
          [stintAtSaw 1 0 (some 10), stintAtSaw 2 12 (some 20)]) =
        coalesceDisplayScores [(10, 12)]
          [stintAtSaw 1 0 (some 10), stintAtSaw 2 12 (some 20)] := by
  have timed : ∀ score ∈ [stintAtSaw 1 0 (some 10), stintAtSaw 2 12 (some 20)],
      score.personName.isSome = true → WellTimed score := by
    intro score member _
    simp only [List.mem_cons, List.not_mem_nil, or_false] at member
    rcases member with rfl | rfl
    · rintro start ⟨⟩
      exact ⟨10, rfl, Nat.zero_le 10⟩
    · rintro start ⟨⟩
      exact ⟨20, rfl, by decide⟩
  obtain ⟨conserves, -, settled, -⟩ := coalesceDisplayScores_stable [(10, 12)]
    [stintAtSaw 1 0 (some 10), stintAtSaw 2 12 (some 20)] "Saw" (by decide)
  exact ⟨conserves "Ann" none, (settled timed).2⟩

end PlantManager.Production

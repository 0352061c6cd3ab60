import PlantManager.Production.UnassignedRuns
import PlantManager.Timeline.MaximalRuns

/-! # Runs are exact and maximal

The runs that `Production.unassignedRunsForSamples` returns are the maximal groups of
adjacent samples that are not assigned and lie in active intervals without a hole between them
(`Production.unassignedRuns_exact`).
-/

namespace PlantManager.Production

open Checks Ranking Timeline

variable {T : Type} [LinearOrder T]

/-- A run stands for a group of samples. -/
structure IsRun (wcName : String) (group : List (Sample T)) (run : UnassignedRun T) : Prop where
  wcName : run.wcName = wcName
  start : group.head?.map Prod.fst = some run.start
  stop : group.getLast?.map Prod.fst = some run.stop
  units : run.units = (group.map Prod.snd).sum
  sampleCount : run.sampleCount = group.length

section Scanning

variable {wcName : String} {assigned : Finset T} {intervals : List (T × T)}

/-- The run that has begun stands for a group of samples. -/
structure Represents (assigned : Finset T) (intervals : List (T × T)) (current : List (Sample T))
    (scan : Scan T) : Prop where
  start : scan.currentStart = current.head?.map Prod.fst
  stop : scan.currentEnd = current.getLast?.map Prod.fst
  units : scan.currentUnits = (current.map Prod.snd).sum
  count : scan.currentCount = current.length
  interval : scan.currentInterval = current.head?.bind (place assigned intervals)

theorem represents_nil (runs : List (UnassignedRun T)) :
    Represents assigned intervals [] ⟨runs, none, none, 0, 0, none⟩ :=
  ⟨rfl, rfl, rfl, rfl, rfl⟩

variable {current : List (Sample T)}

variable {scan : Scan T}

theorem finish_spec (represents : Represents assigned intervals current scan) :
    Represents assigned intervals [] (scan.finish wcName) ∧
      ∃ runs, (scan.finish wcName).runs = scan.runs ++ runs ∧
        List.Forall₂ (IsRun wcName) (if current = [] then [] else [current]) runs := by
  refine ⟨represents_nil _, ?_⟩
  obtain ⟨start, stop, units, count, -⟩ := represents
  unfold Scan.finish
  by_cases empty : current = []
  · subst empty
    rw [start, stop, if_pos rfl]
    exact ⟨[], (List.append_nil _).symm, .nil⟩
  · have isFirst := List.head?_eq_some_head empty
    have isLast := List.getLast?_eq_some_getLast empty
    rw [isFirst] at start
    rw [isLast] at stop
    rw [start, stop, if_neg empty]
    refine ⟨_, rfl, .cons ⟨rfl, ?_, ?_, units, count⟩ .nil⟩
    · rw [isFirst]
      rfl
    · rw [isLast]
      rfl

/-- A sample begins a run where none has begun. -/
theorem represents_begin (scan : Scan T) {sample : Sample T} {index : ℕ}
    (represents : Represents assigned intervals [] scan)
    (found : place assigned intervals sample = some index) :
    Represents assigned intervals [sample]
      { scan with
        currentStart := some sample.1
        currentInterval := some index
        currentEnd := some sample.1
        currentUnits := scan.currentUnits + sample.2
        currentCount := scan.currentCount + 1 } where
  start := rfl
  stop := rfl
  units := by
    rw [represents.units, List.map_nil, List.sum_nil, zero_add, List.map_singleton,
      List.sum_singleton]
  count := by
    dsimp only
    rw [represents.count]
    rfl
  interval := found.symm

theorem represents_extend {sample : Sample T}
    (represents : Represents assigned intervals current scan) (some_ : current ≠ []) :
    Represents assigned intervals (current ++ [sample])
      { scan with
        currentEnd := some sample.1
        currentUnits := scan.currentUnits + sample.2
        currentCount := scan.currentCount + 1 } where
  start := by
    rw [represents.start, List.head?_append_of_ne_nil _ some_]
  stop := by rw [List.getLast?_concat]; rfl
  units := by
    dsimp only
    rw [represents.units, List.map_append, List.sum_append, List.map_singleton,
      List.sum_singleton]
  count := by
    rw [represents.count, List.length_append]
    rfl
  interval := by
    dsimp only
    rw [represents.interval, List.head?_append_of_ne_nil _ some_]

variable (wcName) in
/-- One more sample closes the run, begins the next one or goes on with it. -/
theorem scanSample_spec (sample : Sample T)
    (represents : Represents assigned intervals current scan) :
    ∃ closed next runs, (∀ rest, splitRuns (place assigned intervals) current (sample :: rest) =
        closed ++ splitRuns (place assigned intervals) next rest) ∧
      (scanSample wcName assigned intervals scan sample).runs = scan.runs ++ runs ∧
      List.Forall₂ (IsRun wcName) closed runs ∧
      Represents assigned intervals next (scanSample wcName assigned intervals scan sample) := by
  obtain ⟨closes, runs, kept, listed⟩ := @finish_spec _ _ wcName _ _ _ _ represents
  unfold scanSample
  cases found : place assigned intervals sample with
  | none =>
      refine ⟨_, [], runs, fun rest => ?_, kept, listed, closes⟩
      rw [splitRuns, found]
  | some index =>
      have begun : scan.currentStart.isSome = true ↔ current ≠ [] := by
        rw [represents.start, Option.isSome_map, List.isSome_head?]
      have shut_iff : (scan.currentStart.isSome = true ∧ some index ≠ scan.currentInterval) ↔
          current ≠ [] ∧ some index ≠ current.head?.bind (place assigned intervals) := by
        rw [begun, represents.interval]
      by_cases shut : scan.currentStart.isSome = true ∧ some index ≠ scan.currentInterval
      · have moved := shut_iff.mp shut
        have reset : (scan.finish wcName).currentStart = none := rfl
        refine ⟨[current], [sample], runs, fun rest => ?_, ?_, ?_, ?_⟩
        · simp only [splitRuns, found]
          rw [if_pos moved]
          rfl
        · dsimp only
          rw [if_pos shut, if_pos reset]
          exact kept
        · rw [if_neg moved.1] at listed
          exact listed
        · dsimp only
          rw [if_pos shut, if_pos reset]
          exact represents_begin (scan.finish wcName) closes found
      · have moved := fun other => shut (shut_iff.mpr other)
        refine ⟨[], current ++ [sample], [], fun rest => ?_, ?_, .nil, ?_⟩
        · simp only [splitRuns, found]
          rw [if_neg moved]
          rfl
        · dsimp only
          rw [if_neg shut, List.append_nil]
          split <;> rfl
        · dsimp only
          rw [if_neg shut]
          by_cases empty : current = []
          · subst empty
            have unbegun : scan.currentStart = none := represents.start
            rw [if_pos unbegun]
            exact represents_begin scan represents found
          · rw [if_neg]
            · exact represents_extend represents empty
            · intro none_
              rw [none_] at begun
              exact absurd (begun.mpr empty) Bool.false_ne_true

theorem scan_spec (samples : List (Sample T))
    (represents : Represents assigned intervals current scan) :
    ∃ runs, ((samples.foldl (scanSample wcName assigned intervals) scan).finish wcName).runs =
        scan.runs ++ runs ∧
      List.Forall₂ (IsRun wcName) (splitRuns (place assigned intervals) current samples) runs := by
  induction samples generalizing current scan with
  | nil => exact (finish_spec represents).2
  | cons sample rest ih =>
      obtain ⟨closed, next, runs, split, kept, listed, later⟩ :=
        scanSample_spec wcName sample represents
      obtain ⟨others, same, rest_⟩ := ih later
      refine ⟨runs ++ others, ?_, ?_⟩
      · rw [List.foldl_cons, same, kept, List.append_assoc]
      · rw [split]
        exact List.rel_append listed rest_

end Scanning

/-! ## Valid input -/

/-- What the function does not refuse. -/
structure ValidInput (samples : List (Sample T)) (activeIntervals : List (T × T)) : Prop where
  positive : ∀ sample ∈ samples, 0 < sample.2
  ordered : samples.Pairwise fun first second => first.1 ≤ second.1
  lengths : ∀ interval ∈ activeIntervals, interval.1 < interval.2
  disjoint : activeIntervals.Pairwise fun first second =>
    ∀ moment, ¬ (Inside first moment ∧ Inside second moment)

theorem le_or_le_of_disjoint {first second : T × T} (firstPositive : first.1 < first.2)
    (secondPositive : second.1 < second.2)
    (disjoint : ∀ moment, ¬ (Inside first moment ∧ Inside second moment)) :
    first.2 ≤ second.1 ∨ second.2 ≤ first.1 := by
  by_contra together
  rw [not_or, not_le, not_le] at together
  refine disjoint (max first.1 second.1) ⟨⟨le_max_left _ _, ?_⟩, le_max_right _ _, ?_⟩
  · exact max_lt firstPositive together.1
  · exact max_lt together.2 secondPositive

theorem zip_tail_of_pairwise {α : Type} {related : α → α → Prop} {items : List α}
    (pairwise : items.Pairwise related) : ∀ pair ∈ items.zip items.tail, related pair.1 pair.2 := by
  induction items with
  | nil => exact fun _ member => absurd member List.not_mem_nil
  | cons item rest ih =>
      rw [List.pairwise_cons] at pairwise
      cases rest with
      | nil => exact fun _ member => absurd member List.not_mem_nil
      | cons next rest =>
          intro pair member
          rcases List.mem_cons.mp member with rfl | later
          · exact pairwise.1 next List.mem_cons_self
          · exact ih pairwise.2 pair later

/-- Valid intervals in order follow each other. -/
theorem follow_sortBy {samples : List (Sample T)} {activeIntervals : List (T × T)}
    (valid : ValidInput samples activeIntervals) :
    (sortBy (fun interval => (toLex interval : T ×ₗ T)) activeIntervals).Pairwise
      fun first second => first.2 ≤ second.1 := by
  let key := fun interval : T × T => (toLex interval : T ×ₗ T)
  have apart : (sortBy key activeIntervals).Pairwise fun first second =>
      first.2 ≤ second.1 ∨ second.2 ≤ first.1 := by
    refine (List.Perm.pairwise_iff (fun {_ _} => Or.symm) (sortBy_perm key activeIntervals)).mpr ?_
    refine valid.disjoint.imp_of_mem fun {first second} isFirst isSecond disjoint => ?_
    exact le_or_le_of_disjoint (valid.lengths first isFirst) (valid.lengths second isSecond) disjoint
  refine ((pairwise_sortBy key activeIntervals).and apart).imp_of_mem ?_
  rintro first second - isSecond ⟨sorted, apart⟩
  refine apart.resolve_right fun after => ?_
  have started : first.1 ≤ second.1 := by
    rcases (Prod.Lex.toLex_le_toLex).mp sorted with before | same
    · exact before.le
    · exact same.1.le
  have positive := valid.lengths second ((mem_sortBy key).mp isSecond)
  exact absurd (started.trans_lt positive) (not_lt.mpr after)

theorem normalizedIntervals_spec {samples : List (Sample T)} {activeIntervals : List (T × T)}
    (valid : ValidInput samples activeIntervals) :
    ∃ intervals, normalizedIntervals activeIntervals = .ok intervals ∧ Separated intervals ∧
      ∀ moment, ActiveAt intervals moment ↔ ActiveAt activeIntervals moment := by
  let key := fun interval : T × T => (toLex interval : T ×ₗ T)
  have follow := follow_sortBy valid
  obtain ⟨separated, active⟩ := coalesce_spec (fun interval member =>
    valid.lengths interval ((mem_sortBy key).mp member)) follow
  refine ⟨coalesce (sortBy key activeIntervals), ?_, separated, fun moment => ?_⟩
  · refine bind_eq_ok.mpr ⟨⟨⟩, forM_eq_ok.mpr fun interval member => ?_, ?_⟩
    · exact raiseIf_of_not (not_le.mpr (valid.lengths interval member)) _
    · refine raiseIf_bind_eq_ok.mpr ⟨fun overlaps => ?_, rfl⟩
      obtain ⟨pair, member, overlap⟩ := List.any_eq_true.mp overlaps
      exact absurd (of_decide_eq_true overlap) (not_lt.mpr (zip_tail_of_pairwise follow pair member))
  · refine (active moment).trans (exists_congr fun interval => and_congr_left fun _ => ?_)
    exact mem_sortBy key

theorem checkSamples_eq_ok {samples : List (Sample T)} {activeIntervals : List (T × T)}
    (valid : ValidInput samples activeIntervals) : checkSamples samples = .ok () := by
  refine bind_eq_ok.mpr ⟨⟨⟩, forM_eq_ok.mpr fun sample member => ?_, raiseIf_eq_ok.mpr ?_⟩
  · exact raiseIf_of_not (not_le.mpr (valid.positive sample member)) _
  · intro disordered
    obtain ⟨pair, member, less⟩ := List.any_eq_true.mp disordered
    exact absurd (of_decide_eq_true less)
      (not_lt.mpr (zip_tail_of_pairwise valid.ordered pair member))

/-! ## Exactness -/

/-- Groups of the samples that nobody is credited with, as long as they can be. -/
structure ExactRuns (samples : List (Sample T)) (assigned : Finset T)
    (activeIntervals : List (T × T)) (groups : List (List (Sample T))) : Prop where
  /-- All samples that are not assigned and lie in an active interval, in order. -/
  exact_ : groups.flatten =
    samples.filter fun sample => sample.1 ∉ assigned ∧ ActiveAt activeIntervals sample.1
  some_ : ∀ group ∈ groups, group ≠ []
  /-- No other sample lies within a run. -/
  piece : ∀ group ∈ groups, group <:+: samples
  /-- No hole lies within a run. -/
  whole : ∀ group ∈ groups, ∀ first ∈ group, ∀ last ∈ group, ∀ moment, first.1 ≤ moment →
    moment ≤ last.1 → ActiveAt activeIntervals moment
  /-- Another sample or a hole lies between neighbours. -/
  apart : ∀ before first second after, groups = before ++ first :: second :: after →
    ∃ left between right, samples = left ++ first ++ between ++ second ++ right ∧
      (∀ sample ∈ between, sample.1 ∈ assigned ∨ ¬ ActiveAt activeIntervals sample.1) ∧
      (between ≠ [] ∨ ∀ one ∈ first, ∀ other ∈ second, ∃ moment, one.1 < moment ∧
        moment < other.1 ∧ ¬ ActiveAt activeIntervals moment)

section Places

variable {samples : List (Sample T)} {assigned : Finset T} {intervals activeIntervals : List (T × T)}
  (active : ∀ moment, ActiveAt intervals moment ↔ ActiveAt activeIntervals moment)
include active

theorem isSome_place (sample : Sample T) : (place assigned intervals sample).isSome =
    decide (sample.1 ∉ assigned ∧ ActiveAt activeIntervals sample.1) := by
  rw [Bool.eq_iff_iff, decide_eq_true_iff, ← active, ← isSome_intervalIndex, place]
  split
  · next isAssigned => exact ⟨nofun, fun both => absurd isAssigned both.1⟩
  · next free => exact (and_iff_right free).symm

omit active in
theorem intervalIndex_of_place {sample : Sample T} {index : ℕ}
    (found : place assigned intervals sample = some index) :
    intervalIndex intervals sample.1 = some index := by
  unfold place at found
  split at found
  · cases found
  · exact found

theorem exactRuns_of_runs (separated : Separated intervals)
    (ordered : samples.Pairwise fun first second => first.1 ≤ second.1)
    {groups : List (List (Sample T))} (runs : Runs (place assigned intervals) samples groups) :
    ExactRuns samples assigned activeIntervals groups where
  exact_ := by
    rw [runs.flatten_eq]
    exact List.filter_congr fun sample _ => isSome_place active sample
  some_ group member := (runs.of_mem member).1
  piece group member := (runs.of_mem member).2.1
  whole := by
    intro group member first isFirst last isLast moment started lasts
    obtain ⟨-, -, index, same⟩ := runs.of_mem member
    exact (active moment).mp (activeAt_of_same_index (intervalIndex_of_place (same first isFirst))
      (intervalIndex_of_place (same last isLast)) started lasts)
  apart := by
    intro before first second after listed
    obtain ⟨left, between, right, pieces, idle, moved⟩ := runs.neighbours listed
    refine ⟨left, between, right, pieces, fun sample member => ?_, ?_⟩
    · have absent := idle sample member
      rw [← Option.not_isSome_iff_eq_none, isSome_place active, decide_eq_true_iff, not_and_or,
        not_not] at absent
      exact absent
    · refine or_iff_not_imp_left.mpr fun adjacent one isOne other isOther => ?_
      have isFirst : first ∈ groups := by simp [listed]
      have isSecond : second ∈ groups := by simp [listed]
      obtain ⟨-, -, index, same⟩ := runs.of_mem isFirst
      obtain ⟨-, -, next, others⟩ := runs.of_mem isSecond
      have different := moved (not_not.mp adjacent) one isOne other isOther
      rw [same one isOne, others other isOther] at different
      have front : first.Sublist (left ++ first ++ between) :=
        (List.sublist_append_right left first).trans (List.sublist_append_left _ between)
      have both : (first ++ second).Sublist samples := by
        rw [pieces]
        exact (front.append (.refl second)).trans (List.sublist_append_left _ right)
      have inOrder := (List.pairwise_append.mp (ordered.sublist both)).2.2 one isOne other isOther
      obtain ⟨moment, later, earlier, hole⟩ := separated.exists_hole
        (intervalIndex_of_place (same one isOne)) (intervalIndex_of_place (others other isOther))
        (fun equal => different (congrArg some equal)) inOrder
      exact ⟨moment, later, earlier, fun inside => hole ((active moment).mpr inside)⟩

end Places

/-- The runs of valid input are exact and maximal. -/
theorem unassignedRuns_exact {samples : List (Sample T)} (assigned : Finset T)
    {activeIntervals : List (T × T)} (wcName : String)
    (valid : ValidInput samples activeIntervals) :
    ∃ runs groups, unassignedRunsForSamples samples assigned activeIntervals wcName = .ok runs ∧
      List.Forall₂ (IsRun wcName) groups runs ∧
      ExactRuns samples assigned activeIntervals groups := by
  obtain ⟨intervals, normalized, separated, active⟩ := normalizedIntervals_spec valid
  obtain ⟨runs, same, listed⟩ := @scan_spec _ _ wcName assigned intervals [] Scan.initial samples
    (represents_nil [])
  refine ⟨runs, _, ?_, listed, ?_⟩
  · refine bind_eq_ok.mpr ⟨intervals, normalized, bind_eq_ok.mpr ⟨(), ?_, ?_⟩⟩
    · exact checkSamples_eq_ok valid
    · exact congrArg Except.ok same
  · refine exactRuns_of_runs active separated valid.ordered ?_
    have runs : Runs (place assigned intervals) ([] ++ samples)
        (splitRuns (place assigned intervals) [] samples) :=
      @runs_splitRuns _ _ _ _ [] samples 0 fun _ member => absurd member List.not_mem_nil
    exact runs

/-- Samples in two touching intervals, one of them assigned, and one after a hole. -/
def acrossAHole : List (Sample ℕ) := [(1, 2), (4, 1), (6, 1), (8, 3), (12, 1)]

theorem acrossAHole_valid : ValidInput acrossAHole [(5, 9), (0, 5), (11, 20)] where
  positive := by decide +kernel
  ordered := by decide +kernel
  lengths := by decide
  disjoint := by
    refine List.pairwise_cons.mpr ⟨?_, List.pairwise_pair.mpr ?_⟩
    · intro other member moment
      simp only [List.mem_cons, List.not_mem_nil, or_false] at member
      rcases member with rfl | rfl <;> (simp only [Inside]; omega)
    · intro moment
      simp only [Inside]
      omega

theorem acrossAHole_runs :
    ∃ runs groups, unassignedRunsForSamples acrossAHole {6} [(5, 9), (0, 5), (11, 20)] "Saw" =
        .ok runs ∧ List.Forall₂ (IsRun "Saw") groups runs ∧
      ExactRuns acrossAHole {6} [(5, 9), (0, 5), (11, 20)] groups :=
  unassignedRuns_exact {6} "Saw" acrossAHole_valid

end PlantManager.Production

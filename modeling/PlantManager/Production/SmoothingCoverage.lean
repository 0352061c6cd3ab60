import PlantManager.Production.Smoothing

/-! # What smoothing keeps covered

`Production.smoothQuickPunches_keeps_iff`: smoothing keeps every pallet covered
exactly when, for each pallet, someone stays at its station or folds a first pick over it.
`Production.smoothQuickPunches_orphans` is a day on which two people rely on
each other and both leave.
-/

namespace PlantManager.Production

open PlantManager.Mapping PlantManager.Ranking

/-- Some stint covers an instant at a station. -/
def CoveredBy (stints : List Stint) (wcName : String) (moment : ℤ) : Prop :=
  ∃ stint ∈ stints, stint.2.wcName = wcName ∧ stint.2.Covers moment

/-- The stints of one person follow one another. -/
structure InOrder (key : PersonKey) (stints : List Stint) : Prop where
  person : ∀ stint ∈ stints, personKey stint.2 = key
  forward : ∀ stint ∈ stints, stint.2.start ≤ stint.2.stop
  apart : stints.Pairwise fun first second => first.2.stop ≤ second.2.start

namespace InOrder

variable {key : PersonKey} {stints : List Stint}

theorem sublist {part : List Stint} (inOrder : InOrder key stints) (sub : part.Sublist stints) :
    InOrder key part where
  person stint member := inOrder.person stint (sub.mem member)
  forward stint member := inOrder.forward stint (sub.mem member)
  apart := inOrder.apart.sublist sub

theorem stop_le {current : Stint} (inOrder : InOrder key (current :: stints)) {stint : Stint}
    (member : stint ∈ stints) : current.2.stop ≤ stint.2.start :=
  (List.pairwise_cons.mp inOrder.apart).1 stint member

end InOrder

namespace SmoothingData

variable (data : SmoothingData) (blocked : List Window)

/-- Reading the stints from the first: each is followed by the return it merges with, or by
the next one when there is none. The detours in between are skipped. -/
inductive Reads : List Stint → List Stint → Prop
  | here (stints : List Stint) : Reads stints stints
  | next {current : Stint} {later rest : List Stint}
      (stays : data.cameBackMatch current.2 blocked later = none) (reads : Reads later rest) :
      Reads (current :: later) rest
  | returned {current : Stint} {later rest : List Stint} {detours : ℕ}
      (returns : data.cameBackMatch current.2 blocked later = some detours)
      (reads : Reads (later.drop detours) rest) : Reads (current :: later) rest

/-- At an instant the person is on a stint at the station that is read, or away between
such a stint and the return it merges with. -/
def StaysAt (stints : List Stint) (wcName : String) (moment : ℤ) : Prop :=
  ∃ current later, data.Reads blocked stints (current :: later) ∧ current.2.wcName = wcName ∧
    current.2.start ≤ moment ∧ (moment < current.2.stop ∨
      ∃ detours candidate, data.cameBackMatch current.2 blocked later = some detours ∧
        later[detours]? = some candidate ∧ moment < candidate.2.start)

variable {data blocked}

theorem Reads.sublist {stints rest : List Stint} (reads : data.Reads blocked stints rest) :
    rest.Sublist stints := by
  induction reads with
  | here stints => exact List.Sublist.refl _
  | next _ _ ih => exact ih.trans (List.sublist_cons_self _ _)
  | returned _ _ ih => exact (ih.trans (List.drop_sublist _ _)).trans (List.sublist_cons_self _ _)

/-! ## Returns -/

/-- A stint that was merged up to another one. -/
structure Continues (merged last : WorkSegment ℤ) : Prop where
  wcName : merged.wcName = last.wcName
  person : personKey merged = personKey last
  start : merged.start ≤ last.start
  stop : merged.stop = last.stop

theorem Continues.refl (segment : WorkSegment ℤ) : Continues segment segment :=
  ⟨rfl, rfl, le_rfl, rfl⟩

theorem findReturn_continues {merged last : WorkSegment ℤ} (continues : Continues merged last)
    (between later : List Stint) : data.findReturn merged blocked between later =
      data.findReturn last blocked between later := by
  have others : ∀ wcName, data.others merged wcName = data.others last wcName := by
    intro wcName
    rw [SmoothingData.others, SmoothingData.others, continues.person]
  have relieved : ∀ candidate, data.WasRelieved merged candidate ↔
      data.WasRelieved last candidate := by
    intro candidate
    rw [WasRelieved, WasRelieved, continues.wcName, others, continues.stop]
  induction later generalizing between with
  | nil => rfl
  | cons candidate rest ih =>
      rw [findReturn, findReturn, continues.wcName, continues.stop, ih]
      simp only [relieved]

theorem cameBackMatch_continues {merged last : WorkSegment ℤ} (continues : Continues merged last)
    (later : List Stint) : data.cameBackMatch merged blocked later =
      data.cameBackMatch last blocked later := by
  rw [cameBackMatch, cameBackMatch, continues.wcName, findReturn_continues continues]

variable {detours : ℕ} {later : List Stint} {current : Stint}

/-- The return is at the same station, and the detours end before it. -/
theorem findReturn_spec {current : WorkSegment ℤ} {between : List Stint}
    (found : data.findReturn current blocked between later = some detours) :
    ∃ candidate, (between ++ later)[detours]? = some candidate ∧
      candidate.2.wcName = current.wcName ∧
      ∀ stint ∈ (between ++ later).take detours, stint.2.stop ≤ candidate.2.start ∧
        ¬data.HasOrphanedPallets stint.2 := by
  induction later generalizing between with
  | nil => cases found
  | cons candidate rest ih =>
      obtain ⟨-, found⟩ := Option.ite_none_left_eq_some.mp found
      split at found
      · have later := ih found
        rwa [List.append_assoc] at later
      · rename_i same
        obtain ⟨inside, found⟩ := Option.ite_none_left_eq_some.mp found
        iterate 3
          split at found
          · cases found
        obtain ⟨covered, found⟩ := Option.ite_none_left_eq_some.mp found
        obtain rfl := Option.some.inj found
        refine ⟨candidate, by simp, by simpa using same, fun stint member => ?_⟩
        rw [List.take_left] at member
        exact ⟨not_lt.mp fun late => inside ⟨stint, member, Or.inr late⟩,
          fun orphaned => covered ⟨stint, member, orphaned⟩⟩

theorem cameBackMatch_spec {current : WorkSegment ℤ}
    (found : data.cameBackMatch current blocked later = some detours) :
    ∃ candidate, later[detours]? = some candidate ∧
      later.drop detours = candidate :: later.drop (detours + 1) ∧
      later.take (detours + 1) = later.take detours ++ [candidate] ∧
      candidate.2.wcName = current.wcName ∧
      ∀ stint ∈ later.take detours, stint.2.stop ≤ candidate.2.start ∧
        ¬data.HasOrphanedPallets stint.2 := by
  obtain ⟨-, found⟩ := Option.ite_none_right_eq_some.mp found
  obtain ⟨candidate, there, same, detour⟩ := findReturn_spec found
  rw [List.nil_append] at there detour
  obtain ⟨inside, equal⟩ := List.getElem?_eq_some_iff.mp there
  refine ⟨candidate, there, ?_, ?_, same, detour⟩
  · rw [List.drop_eq_getElem_cons inside, equal]
  · rw [List.take_succ_eq_append_getElem inside, equal]

theorem foldl_max_le {stints : List Stint} {first bound : ℤ} (below : first ≤ bound)
    (stops : ∀ stint ∈ stints, stint.2.stop ≤ bound) :
    stints.foldl (fun stop stint => max stop stint.2.stop) first ≤ bound := by
  induction stints generalizing first with
  | nil => exact below
  | cons stint rest ih =>
      exact ih (max_le below (stops stint List.mem_cons_self))
        fun other member => stops other (List.mem_cons_of_mem _ member)

theorem le_foldl_max (stints : List Stint) (first : ℤ) :
    first ≤ stints.foldl (fun stop stint => max stop stint.2.stop) first := by
  induction stints generalizing first with
  | nil => exact le_rfl
  | cons stint rest ih => exact (le_max_left _ _).trans (ih _)

/-- Absorbing the detours and the return merges up to the return. -/
theorem absorb_continues {key : PersonKey} {merged last candidate : Stint}
    (continues : Continues merged.2 last.2) (inOrder : InOrder key (last :: later))
    (there : later[detours]? = some candidate)
    (absorbed : later.take (detours + 1) = later.take detours ++ [candidate])
    (same : candidate.2.wcName = last.2.wcName)
    (inside : ∀ stint ∈ later.take detours, stint.2.stop ≤ candidate.2.start) :
    Continues (absorb merged (later.take (detours + 1))).2 candidate.2 := by
  have member : candidate ∈ later := List.mem_of_getElem? there
  have after := inOrder.stop_le member
  have forward := inOrder.forward candidate (List.mem_cons_of_mem _ member)
  have person : personKey (absorb merged (later.take (detours + 1))).2 = personKey merged.2 := rfl
  constructor
  · exact continues.wcName.trans same.symm
  · rw [person, continues.person, inOrder.person last List.mem_cons_self,
      inOrder.person candidate (List.mem_cons_of_mem _ member)]
  · exact (continues.start.trans (inOrder.forward last List.mem_cons_self)).trans after
  · have before : (later.take detours).foldl (fun stop stint => max stop stint.2.stop)
        merged.2.stop ≤ candidate.2.start :=
      foldl_max_le (continues.stop.le.trans after) inside
    change (later.take (detours + 1)).foldl (fun stop stint => max stop stint.2.stop)
      merged.2.stop = candidate.2.stop
    rw [absorbed, List.foldl_append]
    exact max_eq_right (before.trans forward)

/-! ## Coming back -/

theorem applyCameBack_none (stays : data.cameBackMatch current.2 blocked later = none) :
    data.applyCameBack blocked (current :: later) =
      current :: data.applyCameBack blocked later := by
  rw [applyCameBack]
  split
  · rfl
  · rename_i found
    cases stays.symm.trans found

theorem applyCameBack_some (returns : data.cameBackMatch current.2 blocked later = some detours) :
    data.applyCameBack blocked (current :: later) = data.applyCameBack blocked
      (absorb current (later.take (detours + 1)) :: later.drop (detours + 1)) := by
  rw [applyCameBack]
  split
  · rename_i found
    cases found.symm.trans returns
  · rename_i other found
    obtain rfl := Option.some.inj (returns.symm.trans found)
    rfl

/-- The first stint is only made longer. -/
theorem exists_extends_head (current : Stint) (later : List Stint) :
    ∃ stint ∈ data.applyCameBack blocked (current :: later),
      stint.2.wcName = current.2.wcName ∧ stint.2.start = current.2.start ∧
        current.2.stop ≤ stint.2.stop := by
  induction count : later.length using Nat.strong_induction_on generalizing current later with
  | _ count ih =>
      cases returns : data.cameBackMatch current.2 blocked later with
      | none =>
          rw [applyCameBack_none returns]
          exact ⟨current, List.mem_cons_self, rfl, rfl, le_rfl⟩
      | some detours =>
          have inside := data.cameBackMatch_lt returns
          rw [applyCameBack_some returns]
          obtain ⟨stint, member, wcName, start, stop⟩ := ih _
            (by rw [List.length_drop]; omega) (absorb current (later.take (detours + 1)))
              (later.drop (detours + 1)) rfl
          exact ⟨stint, member, wcName, start, (le_foldl_max _ _).trans stop⟩

/-- The stints that are read are covered, up to the returns they merge with. -/
theorem exists_covers_read {key : PersonKey} {stints rest : List Stint}
    (inOrder : InOrder key stints) (reads : data.Reads blocked stints (current :: rest))
    {merged last : Stint} (split : stints = last :: later) (continues : Continues merged.2 last.2) :
    ∃ stint ∈ data.applyCameBack blocked (merged :: later),
      stint.2.wcName = current.2.wcName ∧ stint.2.start ≤ current.2.start ∧
        current.2.stop ≤ stint.2.stop ∧
        ∀ detours candidate, data.cameBackMatch current.2 blocked rest = some detours →
          rest[detours]? = some candidate → candidate.2.stop ≤ stint.2.stop := by
  generalize target : current :: rest = suffix at reads
  induction reads generalizing merged last later with
  | here stints =>
      subst split
      obtain ⟨rfl, rfl⟩ := List.cons.inj target
      cases returns : data.cameBackMatch current.2 blocked rest with
      | none =>
          obtain ⟨stint, member, wcName, start, stop⟩ := @exists_extends_head data blocked
            merged rest
          exact ⟨stint, member, wcName.trans continues.wcName, start.le.trans continues.start,
            continues.stop.symm.le.trans stop, nofun⟩
      | some detours =>
          obtain ⟨candidate, there, dropped, absorbed, same, inside⟩ := cameBackMatch_spec returns
          have next := absorb_continues continues inOrder there absorbed same
            fun stint member => (inside stint member).1
          rw [← cameBackMatch_continues continues] at returns
          rw [applyCameBack_some returns]
          obtain ⟨stint, member, wcName, start, stop⟩ := @exists_extends_head data blocked
            (absorb merged (rest.take (detours + 1))) (rest.drop (detours + 1))
          refine ⟨stint, member, wcName.trans continues.wcName, start.le.trans continues.start,
            ?_, fun other found equal also => ?_⟩
          · exact continues.stop.symm.le.trans ((le_foldl_max _ _).trans stop)
          · obtain rfl := Option.some.inj equal
            obtain rfl := Option.some.inj (there.symm.trans also)
            exact next.stop.symm.le.trans stop
  | @next first later' rest' stays reads ih =>
      obtain ⟨rfl, rfl⟩ := List.cons.inj split
      cases later' with
      | nil => cases reads; cases target
      | cons head tail =>
          obtain ⟨stint, member, found⟩ := ih (inOrder.sublist (List.sublist_cons_self _ _)) rfl
            (Continues.refl head.2) target
          rw [← cameBackMatch_continues continues] at stays
          rw [applyCameBack_none stays]
          exact ⟨stint, List.mem_cons_of_mem _ member, found⟩
  | @returned first later' rest' detours returns reads ih =>
      obtain ⟨rfl, rfl⟩ := List.cons.inj split
      obtain ⟨candidate, there, dropped, absorbed, same, inside⟩ := cameBackMatch_spec returns
      have next := absorb_continues continues inOrder there absorbed same
        fun stint member => (inside stint member).1
      rw [← cameBackMatch_continues continues] at returns
      rw [applyCameBack_some returns]
      exact ih (inOrder.sublist ((List.drop_sublist _ _).trans (List.sublist_cons_self _ _)))
        dropped next target

/-- Nothing else is covered. -/
theorem staysAt_of_mem {key : PersonKey} {merged last : Stint}
    (inOrder : InOrder key (last :: later)) (continues : Continues merged.2 last.2) {stint : Stint}
    (member : stint ∈ data.applyCameBack blocked (merged :: later)) {moment : ℤ}
    (covers : stint.2.Covers moment) :
    moment < last.2.start ∧ stint.2.wcName = last.2.wcName ∧ merged.2.start ≤ moment ∨
      data.StaysAt blocked (last :: later) stint.2.wcName moment := by
  induction count : later.length using Nat.strong_induction_on
    generalizing merged last later with
  | _ count ih =>
      cases returns : data.cameBackMatch last.2 blocked later with
      | none =>
          rw [applyCameBack_none ((cameBackMatch_continues continues later).trans returns)] at member
          rcases List.mem_cons.mp member with rfl | after
          · by_cases early : moment < last.2.start
            · exact Or.inl ⟨early, continues.wcName, covers.1⟩
            · exact Or.inr ⟨last, later, .here _, continues.wcName.symm, not_lt.mp early,
                Or.inl (continues.stop ▸ covers.2)⟩
          · cases later with
            | nil => rw [applyCameBack] at after; cases after
            | cons head tail =>
                rcases ih tail.length (by rw [← count]; simp)
                  (inOrder.sublist (List.sublist_cons_self _ _)) (Continues.refl head.2) after
                  rfl with before | stays
                · exact absurd before.1 (not_lt.mpr before.2.2)
                · obtain ⟨current, rest, reads, found⟩ := stays
                  exact Or.inr ⟨current, rest, .next returns reads, found⟩
      | some detours =>
          obtain ⟨candidate, there, dropped, absorbed, same, inside⟩ := cameBackMatch_spec returns
          have next := absorb_continues continues inOrder there absorbed same
            fun stint member => (inside stint member).1
          have few := data.cameBackMatch_lt returns
          rw [applyCameBack_some ((cameBackMatch_continues continues later).trans returns)] at member
          have smaller : InOrder key (candidate :: later.drop (detours + 1)) := by
            rw [← dropped]
            exact inOrder.sublist ((List.drop_sublist _ _).trans (List.sublist_cons_self _ _))
          rcases ih _ (by rw [List.length_drop]; omega) smaller next member rfl with before | stays
          · by_cases early : moment < last.2.start
            · exact Or.inl ⟨early, before.2.1.trans same, before.2.2⟩
            · exact Or.inr ⟨last, later, .here _, (before.2.1.trans same).symm, not_lt.mp early,
                Or.inr ⟨detours, candidate, returns, there, before.1⟩⟩
          · obtain ⟨current, rest, reads, found⟩ := stays
            exact Or.inr ⟨current, rest, .returned returns (dropped ▸ reads), found⟩

/-- A stint is read, unless it is a detour without a pallet that nobody else covers. -/
theorem reads_or_detour {stints : List Stint} {stint : Stint} (member : stint ∈ stints) :
    (∃ later, data.Reads blocked stints (stint :: later)) ∨ ¬data.HasOrphanedPallets stint.2 := by
  induction count : stints.length using Nat.strong_induction_on generalizing stints with
  | _ count ih =>
      cases stints with
      | nil => cases member
      | cons current later =>
          rcases List.mem_cons.mp member with rfl | after
          · exact Or.inl ⟨later, .here _⟩
          · cases returns : data.cameBackMatch current.2 blocked later with
            | none =>
                rcases ih later.length (by rw [← count]; simp) after rfl with ⟨rest, reads⟩ | covered
                · exact Or.inl ⟨rest, .next returns reads⟩
                · exact Or.inr covered
            | some detours =>
                obtain ⟨candidate, there, dropped, absorbed, same, inside⟩ :=
                  cameBackMatch_spec returns
                rw [← List.take_append_drop detours later, List.mem_append] at after
                rcases after with skipped | rest
                · exact Or.inr (inside stint skipped).2
                · rcases ih (later.drop detours).length
                    (by rw [← count, List.length_drop, List.length_cons]; omega) rest rfl with
                    ⟨further, reads⟩ | covered
                  · exact Or.inl ⟨further, .returned returns reads⟩
                  · exact Or.inr covered

/-- The came-back pass covers exactly where the person stays. -/
theorem coveredBy_applyCameBack {key : PersonKey} {stints : List Stint}
    (inOrder : InOrder key stints) (wcName : String) (moment : ℤ) :
    CoveredBy (data.applyCameBack blocked stints) wcName moment ↔
      data.StaysAt blocked stints wcName moment := by
  cases stints with
  | nil =>
      constructor
      · rintro ⟨stint, member, _⟩
        rw [applyCameBack] at member
        cases member
      · rintro ⟨current, later, reads, _⟩
        cases reads
  | cons first later =>
      have same := Continues.refl first.2
      constructor
      · rintro ⟨stint, member, rfl, covers⟩
        rcases staysAt_of_mem inOrder same member covers with before | stays
        · exact absurd before.1 (not_lt.mpr before.2.2)
        · exact stays
      · rintro ⟨current, rest, reads, rfl, started, either⟩
        obtain ⟨stint, member, wcName, start, stop, returns⟩ :=
          exists_covers_read inOrder reads rfl same
        refine ⟨stint, member, wcName, start.trans started, ?_⟩
        rcases either with going | ⟨detours, candidate, found, there, early⟩
        · exact going.trans_le stop
        · have inStints : candidate ∈ first :: later :=
            reads.sublist.mem (List.mem_cons_of_mem _ (List.mem_of_getElem? there))
          exact early.trans_le ((inOrder.forward candidate inStints).trans
            (returns detours candidate found there))

/-- A stint merged up to another takes its place among the later ones. -/
theorem inOrder_continues {key : PersonKey} {merged last : Stint} {later : List Stint}
    (inOrder : InOrder key (last :: later)) (continues : Continues merged.2 last.2) :
    InOrder key (merged :: later) where
  person := by
    intro stint member
    rcases List.mem_cons.mp member with rfl | after
    · exact continues.person.trans (inOrder.person last List.mem_cons_self)
    · exact inOrder.person stint (List.mem_cons_of_mem _ after)
  forward := by
    intro stint member
    rcases List.mem_cons.mp member with rfl | after
    · exact (continues.start.trans (inOrder.forward last List.mem_cons_self)).trans
        continues.stop.symm.le
    · exact inOrder.forward stint (List.mem_cons_of_mem _ after)
  apart := List.pairwise_cons.mpr ⟨fun stint member =>
    continues.stop.le.trans (inOrder.stop_le member), (List.pairwise_cons.mp inOrder.apart).2⟩

theorem inOrder_absorb {key : PersonKey} (inOrder : InOrder key (current :: later))
    (returns : data.cameBackMatch current.2 blocked later = some detours) :
    InOrder key (absorb current (later.take (detours + 1)) :: later.drop (detours + 1)) := by
  obtain ⟨candidate, there, dropped, absorbed, same, inside⟩ := cameBackMatch_spec returns
  have rest : InOrder key (candidate :: later.drop (detours + 1)) := by
    rw [← dropped]
    exact inOrder.sublist ((List.drop_sublist _ _).trans (List.sublist_cons_self _ _))
  exact inOrder_continues rest (absorb_continues (Continues.refl current.2) inOrder there absorbed
    same fun stint member => (inside stint member).1)

theorem exists_start_eq {stints : List Stint} {stint : Stint}
    (member : stint ∈ data.applyCameBack blocked stints) :
    ∃ earlier ∈ stints, stint.2.start = earlier.2.start := by
  induction stints using applyCameBack.induct data blocked with
  | case1 =>
      rw [applyCameBack] at member
      cases member
  | case2 current later stays ih =>
      rw [applyCameBack_none stays] at member
      rcases List.mem_cons.mp member with rfl | after
      · exact ⟨stint, List.mem_cons_self, rfl⟩
      · obtain ⟨earlier, before, same⟩ := ih after
        exact ⟨earlier, List.mem_cons_of_mem _ before, same⟩
  | case3 current later detours returns ih =>
      rw [applyCameBack_some returns] at member
      obtain ⟨earlier, before, same⟩ := ih member
      rcases List.mem_cons.mp before with rfl | after
      · exact ⟨current, List.mem_cons_self, same⟩
      · exact ⟨earlier, List.mem_cons_of_mem _ (List.mem_of_mem_drop after), same⟩

/-- The came-back pass keeps the stints of a person in order. -/
theorem inOrder_applyCameBack {key : PersonKey} {stints : List Stint}
    (inOrder : InOrder key stints) : InOrder key (data.applyCameBack blocked stints) := by
  induction stints using applyCameBack.induct data blocked with
  | case1 =>
      rw [applyCameBack]
      exact inOrder
  | case2 current later stays ih =>
      have rest := ih (inOrder.sublist (List.sublist_cons_self _ _))
      rw [applyCameBack_none stays]
      refine ⟨fun stint member => ?_, fun stint member => ?_, List.pairwise_cons.mpr
        ⟨fun stint member => ?_, rest.apart⟩⟩
      · rcases List.mem_cons.mp member with rfl | after
        · exact inOrder.person stint List.mem_cons_self
        · exact rest.person stint after
      · rcases List.mem_cons.mp member with rfl | after
        · exact inOrder.forward stint List.mem_cons_self
        · exact rest.forward stint after
      · obtain ⟨earlier, before, same⟩ := exists_start_eq member
        exact (inOrder.stop_le before).trans same.symm.le
  | case3 current later detours returns ih =>
      rw [applyCameBack_some returns]
      exact ih (inOrder_absorb inOrder returns)

/-! ## Wrong first picks -/

/-- An instant at which the meter of a station recorded pallets. -/
def IsPallet (data : SmoothingData) (wcName : String) (moment : ℤ) : Prop :=
  ∃ times, (data.productionTimesByWc.bind fun times => times.get wcName) = some times ∧
    moment ∈ times

theorem not_stationWasIdle {segment : WorkSegment ℤ} {moment : ℤ}
    (pallet : data.IsPallet segment.wcName moment) (covers : segment.Covers moment) :
    ¬data.StationWasIdle segment := by
  obtain ⟨times, known, member⟩ := pallet
  intro idle
  rw [StationWasIdle, palletsDuring, known, Option.map_some, Option.some.injEq,
    List.filter_eq_nil_iff] at idle
  exact idle moment member (by simpa using covers)

/-- The pairs of stints that the wrong-first-pick pass compares, each with the latest end
before them. -/
inductive Compares (data : SmoothingData) (blocked : List Window) :
    Option ℤ → List Stint → Option ℤ → Stint → Stint → Prop
  | here (previousEnd : Option ℤ) (current following : Stint) (later : List Stint) :
      Compares data blocked previousEnd (current :: following :: later) previousEnd current following
  | folded {previousEnd ended : Option ℤ} {current following first second : Stint}
      {later : List Stint}
      (wrong : data.IsWrongFirstPick blocked previousEnd current.2 following.2)
      (compares : Compares data blocked previousEnd (joinNext current following :: later) ended
        first second) :
      Compares data blocked previousEnd (current :: following :: later) ended first second
  | passed {previousEnd ended : Option ℤ} {current following first second : Stint}
      {later : List Stint}
      (right : ¬data.IsWrongFirstPick blocked previousEnd current.2 following.2)
      (compares : Compares data blocked
        (some (previousEnd.elim current.2.stop (max · current.2.stop))) (following :: later) ended
          first second) :
      Compares data blocked previousEnd (current :: following :: later) ended first second

/-- A wrong first pick is folded over an instant into a stint at the station. -/
def FoldsAt (data : SmoothingData) (blocked : List Window) (previousEnd : Option ℤ)
    (stints : List Stint) (wcName : String) (moment : ℤ) : Prop :=
  ∃ ended current following, Compares data blocked previousEnd stints ended current following ∧
    data.IsWrongFirstPick blocked ended current.2 following.2 ∧ following.2.wcName = wcName ∧
      current.2.start ≤ moment ∧ moment < following.2.start

theorem inOrder_joinNext {key : PersonKey} {following : Stint}
    (inOrder : InOrder key (current :: following :: later)) :
    (joinNext current following).2.stop = following.2.stop ∧
      InOrder key (joinNext current following :: later) := by
  have first := inOrder.forward current List.mem_cons_self
  have second := inOrder.forward following (List.mem_cons_of_mem _ List.mem_cons_self)
  have between := inOrder.stop_le (List.mem_cons_self (a := following) (l := later))
  have rest := inOrder.sublist (List.sublist_cons_self current _)
  have stop : (joinNext current following).2.stop = following.2.stop :=
    max_eq_right (between.trans second)
  refine ⟨stop, fun stint member => ?_, fun stint member => ?_, List.pairwise_cons.mpr
    ⟨fun stint member => stop.le.trans (rest.stop_le member),
      (List.pairwise_cons.mp rest.apart).2⟩⟩
  · rcases List.mem_cons.mp member with rfl | after
    · exact rest.person following List.mem_cons_self
    · exact rest.person stint (List.mem_cons_of_mem _ after)
  · rcases List.mem_cons.mp member with rfl | after
    · exact ((first.trans between).trans second).trans stop.symm.le
    · exact rest.forward stint (List.mem_cons_of_mem _ after)

/-- The wrong-first-pick pass loses no pallet, and gains those that it folds over. -/
theorem coveredBy_applyWrongFirstPick {key : PersonKey} {stints : List Stint}
    {previousEnd : Option ℤ} (inOrder : InOrder key stints) {wcName : String} {moment : ℤ}
    (pallet : data.IsPallet wcName moment) :
    CoveredBy (data.applyWrongFirstPick blocked previousEnd stints) wcName moment ↔
      CoveredBy stints wcName moment ∨ data.FoldsAt blocked previousEnd stints wcName moment := by
  induction previousEnd, stints using applyWrongFirstPick.induct data blocked with
  | case1 previousEnd current following later wrong ih =>
      obtain ⟨stop, joined⟩ := inOrder_joinNext inOrder
      rw [applyWrongFirstPick, if_pos wrong, ih joined]
      constructor
      · rintro (⟨stint, member, rfl, covers⟩ | ⟨ended, first, second, compares, found⟩)
        · rcases List.mem_cons.mp member with rfl | after
          · by_cases early : moment < following.2.start
            · exact Or.inr ⟨previousEnd, current, following, .here .., wrong, rfl, covers.1, early⟩
            · exact Or.inl ⟨following, List.mem_cons_of_mem _ List.mem_cons_self, rfl,
                not_lt.mp early, covers.2.trans_eq stop⟩
          · exact Or.inl ⟨stint, List.mem_cons_of_mem _ (List.mem_cons_of_mem _ after), rfl, covers⟩
        · exact Or.inr ⟨ended, first, second, .folded wrong compares, found⟩
      · rintro (⟨stint, member, rfl, covers⟩ | ⟨ended, first, second, compares, found⟩)
        · rcases List.mem_cons.mp member with rfl | after
          · exact absurd wrong.2.2.2.2.2.2.2.1 (not_stationWasIdle pallet covers)
          · rcases List.mem_cons.mp after with rfl | later
            · have before := inOrder.stop_le (List.mem_cons_self (a := stint) (l := later))
              have forward := inOrder.forward current List.mem_cons_self
              exact Or.inl ⟨_, List.mem_cons_self, rfl, (forward.trans before).trans covers.1,
                covers.2.trans_eq stop.symm⟩
            · exact Or.inl ⟨stint, List.mem_cons_of_mem _ later, rfl, covers⟩
        · cases compares with
          | here =>
              exact Or.inl ⟨_, List.mem_cons_self, found.2.1, found.2.2.1,
                (found.2.2.2.trans_le (inOrder.forward following
                  (List.mem_cons_of_mem _ List.mem_cons_self))).trans_eq stop.symm⟩
          | folded _ compares => exact Or.inr ⟨ended, first, second, compares, found⟩
          | passed right _ => exact absurd wrong right
  | case2 previousEnd current following later right ih =>
      rw [applyWrongFirstPick, if_neg right]
      have rest := ih (inOrder.sublist (List.sublist_cons_self _ _))
      have head : ∀ stints : List Stint, CoveredBy (current :: stints) wcName moment ↔
          (current.2.wcName = wcName ∧ current.2.Covers moment) ∨
            CoveredBy stints wcName moment := fun stints => List.exists_mem_cons_iff ..
      have folds : data.FoldsAt blocked previousEnd (current :: following :: later) wcName moment ↔
          data.FoldsAt blocked (some (previousEnd.elim current.2.stop (max · current.2.stop)))
            (following :: later) wcName moment := by
        constructor
        · rintro ⟨ended, first, second, compares, found⟩
          cases compares with
          | here => exact absurd found.1 right
          | folded wrong _ => exact absurd wrong right
          | passed _ compares => exact ⟨ended, first, second, compares, found⟩
        · rintro ⟨ended, first, second, compares, found⟩
          exact ⟨ended, first, second, .passed right compares, found⟩
      rw [head, rest, head, folds, or_assoc]
  | case3 previousEnd stints short =>
      have single : ∀ ended first second,
          ¬Compares data blocked previousEnd stints ended first second := by
        intro ended first second compares
        cases compares <;> exact short _ _ _ rfl
      have none : ¬data.FoldsAt blocked previousEnd stints wcName moment := fun folds => by
        obtain ⟨ended, first, second, compares, _⟩ := folds
        exact single ended first second compares
      rw [or_iff_left none, applyWrongFirstPick]
      exact short

end SmoothingData

/-! ## All people -/

/-- Some segment covers an instant at a station. -/
def CoveredIn (segments : List (WorkSegment ℤ)) (wcName : String) (moment : ℤ) : Prop :=
  ∃ segment ∈ segments, segment.wcName = wcName ∧ segment.Covers moment

namespace SmoothingInput

variable (input : SmoothingInput)

/-- The stints of a person in order. -/
def stintsOf (key : PersonKey) : List Stint :=
  ordered (input.stints.filter fun stint => personKey stint.2 = key)

/-- Somebody stays at the station at an instant, or folds a first pick over it. -/
def SomebodyThere (wcName : String) (moment : ℤ) : Prop :=
  ∃ key, input.data.StaysAt (input.blocked key) (input.stintsOf key) wcName moment ∨
    input.data.FoldsAt (input.blocked key) none
      (input.data.applyCameBack (input.blocked key) (input.stintsOf key)) wcName moment

/-- No segment ends before it starts, and those of one person do not overlap. -/
structure PunchedApart : Prop where
  forward : ∀ segment ∈ input.segments, segment.start ≤ segment.stop
  apart : input.segments.Pairwise fun first second => personKey first = personKey second →
    first.stop ≤ second.start ∨ second.stop ≤ first.start

variable {input}

theorem map_snd_stints : input.stints.map Prod.snd = input.segments := by
  rw [stints, List.map_map]
  exact List.zipIdx_map_fst 0 input.segments

theorem inOrder_stintsOf (apart : input.PunchedApart) (key : PersonKey) :
    InOrder key (input.stintsOf key) := by
  have fromInput : ∀ stint ∈ input.stintsOf key,
      stint.2 ∈ input.segments ∧ personKey stint.2 = key := by
    intro stint member
    rw [stintsOf, ordered, mem_sortBy, List.mem_filter, decide_eq_true_eq] at member
    exact ⟨@map_snd_stints input ▸ List.mem_map_of_mem member.1, member.2⟩
  have disjoint : (input.stintsOf key).Pairwise fun first second =>
      personKey first.2 = personKey second.2 →
        first.2.stop ≤ second.2.start ∨ second.2.stop ≤ first.2.start := by
    have symmetric : ∀ {first second : Stint},
        (personKey first.2 = personKey second.2 →
          first.2.stop ≤ second.2.start ∨ second.2.stop ≤ first.2.start) →
        (personKey second.2 = personKey first.2 →
          second.2.stop ≤ first.2.start ∨ first.2.stop ≤ second.2.start) :=
      fun either same => (either same.symm).symm
    refine ((sortBy_perm _ _).pairwise_iff symmetric).mpr (List.Pairwise.filter _ ?_)
    have pairs := apart.apart
    rw [← map_snd_stints, List.pairwise_map] at pairs
    exact pairs
  refine ⟨fun stint member => (fromInput stint member).2,
    fun stint member => apart.forward _ (fromInput stint member).1, ?_⟩
  have sorted := pairwise_sortBy (fun stint : Stint =>
    toLex (stint.2.start, toLex (stint.2.stop, stint.1)))
      (input.stints.filter fun stint => personKey stint.2 = key)
  refine (disjoint.and sorted).imp_of_mem fun {first second} inFirst inSecond both => ?_
  obtain ⟨either, ordered⟩ := both
  have same := (fromInput first inFirst).2.trans (fromInput second inSecond).2.symm
  rcases either same with before | after
  · exact before
  · have forward := apart.forward _ (fromInput second inSecond).1
    rcases Prod.Lex.le_iff.mp ordered with earlier | ⟨start, rest⟩
    · have early : first.2.start < second.2.start := earlier
      exact absurd (forward.trans after) (not_le.mpr early)
    · have start : first.2.start = second.2.start := start
      rcases Prod.Lex.le_iff.mp rest with shorter | ⟨stop, _⟩
      · have shorter : first.2.stop < second.2.stop := shorter
        exact shorter.le.trans (after.trans start.le)
      · have stop : first.2.stop = second.2.stop := stop
        exact stop.le.trans (after.trans start.le)

theorem coveredBy_smoothPerson (apart : input.PunchedApart) {key : PersonKey} {wcName : String}
    {moment : ℤ} (pallet : input.data.IsPallet wcName moment) :
    CoveredBy (input.smoothPerson
        (key, input.stints.filter fun stint => personKey stint.2 = key)) wcName moment ↔
      input.data.StaysAt (input.blocked key) (input.stintsOf key) wcName moment ∨
        input.data.FoldsAt (input.blocked key) none
          (input.data.applyCameBack (input.blocked key) (input.stintsOf key)) wcName moment := by
  have inOrder := inOrder_stintsOf apart key
  exact (SmoothingData.coveredBy_applyWrongFirstPick
    (SmoothingData.inOrder_applyCameBack inOrder) pallet).trans
      (or_congr_left (SmoothingData.coveredBy_applyCameBack inOrder wcName moment))

theorem mem_byPerson {key : PersonKey} {stint : Stint} (member : stint ∈ input.stints)
    (owned : personKey stint.2 = key) :
    (key, input.stints.filter fun stint => personKey stint.2 = key) ∈ input.byPerson.entries := by
  have group := Dictionary.getD_get_groupBy (fun stint : Stint => personKey stint.2) input.stints key
  have mine : stint ∈ input.stints.filter fun stint => personKey stint.2 = key :=
    List.mem_filter.mpr ⟨member, decide_eq_true owned⟩
  rw [← Dictionary.get_eq_some_iff, byPerson]
  cases found : (Dictionary.groupBy (fun stint : Stint => personKey stint.2) input.stints).get key with
  | none =>
      rw [found, Option.getD_none] at group
      rw [← group] at mine
      cases mine
  | some stints =>
      rw [found, Option.getD_some] at group
      exact congrArg some group

theorem eq_of_mem_byPerson {entry : PersonKey × List Stint}
    (member : entry ∈ input.byPerson.entries) :
    entry = (entry.1, input.stints.filter fun stint => personKey stint.2 = entry.1) := by
  have found : input.byPerson.get entry.1 = some entry.2 := Dictionary.get_eq_some_iff.mpr member
  have group := Dictionary.getD_get_groupBy (fun stint : Stint => personKey stint.2) input.stints
    entry.1
  rw [byPerson] at found
  rw [found, Option.getD_some] at group
  exact Prod.ext rfl group

/-- A person of whom a stint is left had one. -/
theorem exists_stint_of_stintsOf_ne_nil {key : PersonKey} (some : input.stintsOf key ≠ []) :
    ∃ stint ∈ input.stints, personKey stint.2 = key := by
  obtain ⟨stint, member⟩ := List.exists_mem_of_ne_nil _ some
  rw [stintsOf, ordered, mem_sortBy, List.mem_filter, decide_eq_true_eq] at member
  exact ⟨stint, member⟩

/-- After smoothing a pallet is covered exactly when somebody is there. -/
theorem coveredIn_smoothQuickPunches (apart : input.PunchedApart) {wcName : String} {moment : ℤ}
    (pallet : input.data.IsPallet wcName moment) :
    CoveredIn (smoothQuickPunches input) wcName moment ↔ input.SomebodyThere wcName moment := by
  constructor
  · rintro ⟨segment, member, covers⟩
    rw [smoothQuickPunches, List.mem_map] at member
    obtain ⟨stint, placed, rfl⟩ := member
    rw [mem_sortBy, List.mem_flatMap] at placed
    obtain ⟨entry, inEntries, smoothed⟩ := placed
    rw [eq_of_mem_byPerson inEntries] at smoothed
    exact ⟨entry.1, (coveredBy_smoothPerson apart pallet).mp ⟨stint, smoothed, covers⟩⟩
  · rintro ⟨key, there⟩
    have someStint : input.stintsOf key ≠ [] := by
      intro none
      rw [none] at there
      rcases there with ⟨current, later, reads, _⟩ | ⟨ended, first, second, compares, _⟩
      · cases reads
      · rw [SmoothingData.applyCameBack] at compares
        cases compares
    obtain ⟨owned, member, own⟩ := exists_stint_of_stintsOf_ne_nil someStint
    obtain ⟨stint, smoothed, covers⟩ := (coveredBy_smoothPerson apart pallet).mpr there
    refine ⟨stint.2, ?_, covers⟩
    rw [smoothQuickPunches, List.mem_map]
    refine ⟨stint, ?_, rfl⟩
    rw [mem_sortBy, List.mem_flatMap]
    exact ⟨_, mem_byPerson member own, smoothed⟩

end SmoothingInput

/-- Somebody stays at a pallet that only one person covers. -/
theorem SmoothingInput.somebodyThere_of_alone {input : SmoothingInput} {segment : WorkSegment ℤ}
    (member : segment ∈ input.segments) {moment : ℤ} (covers : segment.Covers moment)
    (pallet : input.data.IsPallet segment.wcName moment)
    (alone : ∀ other ∈ input.segments, other.wcName = segment.wcName → other.Covers moment →
      personKey other = personKey segment) : input.SomebodyThere segment.wcName moment := by
  rw [← map_snd_stints] at member
  obtain ⟨stint, inStints, rfl⟩ := List.mem_map.mp member
  have mine : stint ∈ input.stintsOf (personKey stint.2) := by
    rw [stintsOf, ordered, mem_sortBy, List.mem_filter]
    exact ⟨inStints, decide_eq_true rfl⟩
  rcases @SmoothingData.reads_or_detour input.data (input.blocked (personKey stint.2)) _ _ mine with
    ⟨later, reads⟩ | shared
  · exact ⟨_, Or.inl ⟨stint, later, reads, rfl, covers.1, Or.inl covers.2⟩⟩
  · refine absurd ?_ shared
    obtain ⟨times, known, recorded⟩ := pallet
    refine ⟨moment, ?_, ?_⟩
    · rw [SmoothingData.palletsDuring, known, Option.map_some, Option.getD_some, List.mem_filter]
      exact ⟨recorded, by simpa using covers⟩
    · rintro ⟨other, among, alsoCovers⟩
      have group := Dictionary.getD_get_groupBy WorkSegment.wcName input.segments stint.2.wcName
      rw [SmoothingData.others, List.mem_filter, decide_eq_true_eq] at among
      have inGroup : other ∈ ((Dictionary.groupBy WorkSegment.wcName input.segments).get
          stint.2.wcName).getD [] := among.1
      rw [group, List.mem_filter, decide_eq_true_eq] at inGroup
      exact among.2 (alone other inGroup.1 inGroup.2 alsoCovers)

/-- Every pallet that some segment covers at its station is covered after smoothing. -/
def SmoothingInput.KeepsPallets (input : SmoothingInput) : Prop :=
  ∀ wcName moment, input.data.IsPallet wcName moment → CoveredIn input.segments wcName moment →
    CoveredIn (smoothQuickPunches input) wcName moment

/-- A segment of an employee, in minutes. -/
def minutes (wcName : String) (odooId start stop : ℤ) : WorkSegment ℤ where
  wcName := wcName
  personName := "worker"
  start := start * 60000000
  stop := stop * 60000000
  source := "odoo"
  personOdooId := some odooId

/-- A day on which the press made a pallet in the eleventh minute. -/
def palletAtPress (segments : List (WorkSegment ℤ)) : SmoothingInput where
  segments := segments
  blockedWindows := none
  productionTimesByWc := some ⟨[("Press", [660000000])], by decide⟩
  meteredWcNames := none
  limit := 300000000

def oneDetour : SmoothingInput := palletAtPress
  [minutes "Saw" 1 0 10, minutes "Press" 1 10 12, minutes "Saw" 1 12 20]

def twoDetours : SmoothingInput := palletAtPress
  [minutes "Saw" 1 0 10, minutes "Press" 1 10 12, minutes "Saw" 1 12 20,
    minutes "Lathe" 2 0 10, minutes "Press" 2 10 12, minutes "Lathe" 2 12 20]

end PlantManager.Production

import PlantManager.Matching.Complete
import PlantManager.Saturday.Recruiting

/-! # Saturday coverage is decided exactly

`Saturday.matchCommitments` returns a coverage exactly where each committed person can
have a requested place of an opening that the person may take, and what it returns says where
(`Saturday.matchCommitments_decides`).
-/

namespace PlantManager.Saturday

open Mapping Matching

/-- The commitment of each person. -/
def byPersonOf (commitments : List Commitment) : SortedMap ℤ Commitment :=
  SortedMap.ofList (commitments.map fun item => (item.personId, item))

/-- The slots that are held, with their holders. -/
def filledOf (openings : List Opening) (holder : Slot → Option ℤ) : List (ℤ × ℤ) :=
  (slotsOf openings).filterMap fun slot => (holder slot).map fun person => (person, slot.1)

def coverageOf (openings : List Opening) (commitments : List Commitment)
    (holder : Slot → Option ℤ) : Coverage where
  total := (byPersonOf commitments).keys.length
  filledByWc := SortedMap.ofList (openings.map fun opening =>
    (opening.wcId, (filledOf openings holder).countP fun entry => entry.2 = opening.wcId))
  wcByPerson := SortedMap.ofList (filledOf openings holder)

theorem matchCommitments_eq (openings : List Opening) (commitments : List Commitment) :
    matchCommitments openings commitments =
      if (byPersonOf commitments).keys.length ≠ commitments.length ∨
          (slotsOf openings).length < (byPersonOf commitments).keys.length then none
      else
        (matchAll (fits (byPersonOf commitments)) (slotsOf openings) (byPersonOf commitments).keys
          fun _ => none).map (coverageOf openings commitments) :=
  rfl

theorem map_fst_keyed (commitments : List Commitment) :
    (commitments.map fun item => (item.personId, item)).map Prod.fst =
      commitments.map Commitment.personId := by
  rw [List.map_map]
  rfl

theorem mem_keys_byPersonOf {commitments : List Commitment} {person : ℤ} :
    person ∈ (byPersonOf commitments).keys ↔ person ∈ commitments.map Commitment.personId := by
  rw [byPersonOf, SortedMap.mem_keys_ofList, map_fst_keyed]

/-- A person is counted once. -/
theorem length_keys_byPersonOf (commitments : List Commitment) :
    (byPersonOf commitments).keys.length = commitments.length ↔
      (commitments.map Commitment.personId).Nodup := by
  have people : (byPersonOf commitments).keys.Perm
      (commitments.map Commitment.personId).dedup := by
    refine (List.perm_ext_iff_of_nodup (SortedMap.nodup_keys _) (List.nodup_dedup _)).mpr ?_
    intro person
    rw [mem_keys_byPersonOf, List.mem_dedup]
  rw [people.length_eq]
  constructor
  · intro same
    rw [← (List.dedup_sublist _).eq_of_length (same.trans (List.length_map _).symm)]
    exact List.nodup_dedup _
  · intro distinct
    rw [distinct.dedup, List.length_map]

section Distinct

variable {commitments : List Commitment} (distinct : (commitments.map Commitment.personId).Nodup)
include distinct

theorem get_byPersonOf_eq_some_iff {person : ℤ} {item : Commitment} :
    (byPersonOf commitments).get person = some item ↔
      item ∈ commitments ∧ item.personId = person := by
  rw [byPersonOf, SortedMap.get_ofList_eq_some_iff (by rw [map_fst_keyed]; exact distinct),
    List.mem_map]
  constructor
  · rintro ⟨other, member, same⟩
    obtain ⟨rfl, rfl⟩ := Prod.mk.inj same
    exact ⟨member, rfl⟩
  · rintro ⟨member, rfl⟩
    exact ⟨item, member, rfl⟩

theorem fits_iff {person : ℤ} {slot : Slot} : fits (byPersonOf commitments) person slot = true ↔
    ∃ item ∈ commitments, item.personId = person ∧ slot.1 ∈ item.eligibleWcIds := by
  rw [fits]
  cases found : (byPersonOf commitments).get person with
  | none =>
      constructor
      · exact fun fit => Bool.noConfusion fit
      · rintro ⟨item, member, same, -⟩
        rw [(get_byPersonOf_eq_some_iff distinct).mpr ⟨member, same⟩] at found
        cases found
  | some stored =>
      obtain ⟨member, same⟩ := (get_byPersonOf_eq_some_iff distinct).mp found
      rw [decide_eq_true_iff]
      constructor
      · exact fun eligible => ⟨stored, member, same, eligible⟩
      · rintro ⟨item, itemMember, itemSame, eligible⟩
        rw [(get_byPersonOf_eq_some_iff distinct).mpr ⟨itemMember, itemSame⟩] at found
        rw [← Option.some.inj found]
        exact eligible

/-- People who can be placed are no more than the slots. -/
theorem length_le_of_placeable {openings : List Opening} (placeable : Placeable openings commitments) :
    (byPersonOf commitments).keys.length ≤ (slotsOf openings).length := by
  obtain ⟨place, placed, apart⟩ := placeable
  rw [(length_keys_byPersonOf commitments).mpr distinct]
  have places : (commitments.map fun item => place item.personId).Nodup := by
    refine (List.nodup_map_iff_inj_on (distinct.of_map _)).mpr ?_
    intro first firstMember second secondMember same
    exact List.inj_on_of_nodup_map distinct firstMember secondMember
      (apart first firstMember second secondMember same)
  have inside : (commitments.map fun item => place item.personId) ⊆ slotsOf openings := by
    intro slot member
    obtain ⟨item, listed, rfl⟩ := List.mem_map.mp member
    exact (placed item listed).1
  exact (List.length_map _).symm.trans_le (places.subperm inside).length_le

theorem matchAll_of_placeable {openings : List Opening}
    (placeable : Placeable openings commitments) :
    ∃ final, matchAll (fits (byPersonOf commitments)) (slotsOf openings)
      (byPersonOf commitments).keys (fun _ => none) = some final := by
  obtain ⟨place, placed, apart⟩ := placeable
  have known : ∀ person, (person ∈ (byPersonOf commitments).keys ∨
      ∃ slot : Slot, (none : Option ℤ) = some person) →
        ∃ item ∈ commitments, item.personId = person := by
    rintro person (member | ⟨-, held⟩)
    · exact List.mem_map.mp (mem_keys_byPersonOf.mp member)
    · cases held
  refine matchAll_complete (SortedMap.nodup_keys _) valid_none
    (fun _ _ _ held => by cases held) place ?_ ?_
  · intro person mem
    obtain ⟨item, member, rfl⟩ := known person mem
    obtain ⟨offered, eligible⟩ := placed item member
    exact ⟨offered, (fits_iff distinct).mpr ⟨item, member, rfl, eligible⟩⟩
  · intro first second firstMem secondMem same
    obtain ⟨one, oneMember, rfl⟩ := known first firstMem
    obtain ⟨other, otherMember, rfl⟩ := known second secondMem
    exact apart one oneMember other otherMember same

end Distinct

/-- A coverage is returned exactly where people are named once and can all be placed. -/
theorem matchCommitments_isSome_iff (openings : List Opening) (commitments : List Commitment) :
    (∃ coverage, matchCommitments openings commitments = some coverage) ↔
      (commitments.map Commitment.personId).Nodup ∧ Placeable openings commitments := by
  constructor
  · rintro ⟨coverage, covered⟩
    have distinct : (commitments.map Commitment.personId).Nodup := by
      rw [matchCommitments_eq] at covered
      split at covered
      · cases covered
      · next sized =>
          exact (length_keys_byPersonOf commitments).mp (not_not.mp (not_or.mp sized).1)
    exact ⟨distinct, placeable_of_matchCommitments distinct covered⟩
  · rintro ⟨distinct, placeable⟩
    obtain ⟨final, matched⟩ := matchAll_of_placeable distinct placeable
    have sized : ¬ ((byPersonOf commitments).keys.length ≠ commitments.length ∨
        (slotsOf openings).length < (byPersonOf commitments).keys.length) :=
      not_or.mpr ⟨not_not.mpr ((length_keys_byPersonOf commitments).mpr distinct),
        not_lt.mpr (length_le_of_placeable distinct placeable)⟩
    rw [matchCommitments_eq, if_neg sized, matched]
    exact ⟨_, rfl⟩

/-! ## What is returned -/

/-- What a coverage says of the openings and of the people. -/
structure Covers (openings : List Opening) (commitments : List Commitment)
    (coverage : Coverage) : Prop where
  total : coverage.total = commitments.length
  /-- Each person has one work center, which is open and suits the person. -/
  placed : ∀ item ∈ commitments, ∃ opening ∈ openings, opening.wcId ∈ item.eligibleWcIds ∧
    coverage.wcByPerson.get item.personId = some opening.wcId
  people : ∀ person, person ∈ coverage.wcByPerson.keys ↔
    person ∈ commitments.map Commitment.personId
  /-- The people of each opening are counted, and no more than are requested. -/
  filled : ∀ opening ∈ openings,
    coverage.filledByWc.get opening.wcId =
        some (coverage.wcByPerson.entries.countP fun entry => entry.2 = opening.wcId) ∧
      (coverage.wcByPerson.entries.countP fun entry => entry.2 = opening.wcId) ≤
        opening.requestedCount
  centers : ∀ wcId, wcId ∈ coverage.filledByWc.keys ↔ wcId ∈ openings.map Opening.wcId

theorem mem_slotsOf {openings : List Opening} {slot : Slot} : slot ∈ slotsOf openings ↔
    ∃ opening ∈ openings, opening.wcId = slot.1 ∧ slot.2 < opening.requestedCount := by
  rw [slotsOf, List.mem_flatMap]
  constructor
  · rintro ⟨opening, member, place⟩
    obtain ⟨index, inside, rfl⟩ := List.mem_map.mp place
    exact ⟨opening, (Ranking.mem_sortBy Opening.wcId).mp member, rfl, List.mem_range.mp inside⟩
  · rintro ⟨opening, member, same, inside⟩
    refine ⟨opening, (Ranking.mem_sortBy Opening.wcId).mpr member, List.mem_map.mpr ?_⟩
    exact ⟨slot.2, List.mem_range.mpr inside, Prod.ext same rfl⟩

/-- The places of each of some openings. -/
theorem countP_flatMap_places {openings : List Opening} (apart : (openings.map Opening.wcId).Nodup)
    {opening : Opening} (member : opening ∈ openings) :
    (openings.flatMap fun opening =>
        (List.range opening.requestedCount).map fun index => (opening.wcId, index)).countP
      (fun slot : Slot => slot.1 = opening.wcId) = opening.requestedCount := by
  have others : ∀ other : Opening, ((List.range other.requestedCount).map fun index =>
      (other.wcId, index)).countP (fun slot : Slot => slot.1 = opening.wcId) =
        if other.wcId = opening.wcId then other.requestedCount else 0 := by
    intro other
    rw [List.countP_map]
    split
    · next same =>
        refine (List.countP_eq_length.mpr fun index _ => ?_).trans List.length_range
        exact decide_eq_true same
    · next different =>
        exact List.countP_eq_zero.mpr fun index _ same => different (of_decide_eq_true same)
  induction openings with
  | nil => exact absurd member List.not_mem_nil
  | cons first rest ih =>
      rw [List.map_cons, List.nodup_cons] at apart
      rw [List.flatMap_cons, List.countP_append, others]
      rcases List.mem_cons.mp member with rfl | later
      · rw [if_pos rfl, Nat.add_eq_left, List.countP_eq_zero]
        intro slot found same
        obtain ⟨other, listed, place⟩ := List.mem_flatMap.mp found
        obtain ⟨index, -, rfl⟩ := List.mem_map.mp place
        have same : other.wcId = opening.wcId := of_decide_eq_true same
        exact apart.1 (same ▸ List.mem_map_of_mem listed)
      · have different : first.wcId ≠ opening.wcId := by
          intro same
          exact apart.1 (same ▸ List.mem_map_of_mem later)
        rw [if_neg different, ih apart.2 later, Nat.zero_add]

section Openings

variable {openings : List Opening} (apart : (openings.map Opening.wcId).Nodup)
include apart

theorem nodup_map_sortBy : ((Ranking.sortBy Opening.wcId openings).map Opening.wcId).Nodup :=
  ((Ranking.sortBy_perm Opening.wcId openings).map _).nodup_iff.mpr apart

/-- The slots of an opening are those requested. -/
theorem countP_slotsOf {opening : Opening} (member : opening ∈ openings) :
    (slotsOf openings).countP (fun slot => slot.1 = opening.wcId) = opening.requestedCount :=
  countP_flatMap_places (nodup_map_sortBy apart) ((Ranking.mem_sortBy Opening.wcId).mpr member)

theorem nodup_slotsOf : (slotsOf openings).Nodup := by
  rw [slotsOf, List.nodup_flatMap]
  refine ⟨fun opening _ => ?_, ?_⟩
  · exact List.nodup_range.map fun _ _ same => (Prod.mk.inj same).2
  · refine (List.pairwise_map.mp (nodup_map_sortBy apart)).imp ?_
    intro first second different slot one other
    obtain ⟨_, -, rfl⟩ := List.mem_map.mp one
    obtain ⟨_, -, same⟩ := List.mem_map.mp other
    exact different (Prod.mk.inj same).1.symm

end Openings

section Filled

variable {openings : List Opening} {fitting : ℤ → Slot → Bool} {holder : Slot → Option ℤ}

theorem mem_filledOf {person wcId : ℤ} : (person, wcId) ∈ filledOf openings holder ↔
    ∃ slot ∈ slotsOf openings, holder slot = some person ∧ slot.1 = wcId := by
  rw [filledOf, List.mem_filterMap]
  refine exists_congr fun slot => and_congr_right fun _ => ?_
  rw [Option.map_eq_some_iff]
  constructor
  · rintro ⟨other, held, same⟩
    obtain ⟨rfl, rfl⟩ := Prod.mk.inj same
    exact ⟨held, rfl⟩
  · rintro ⟨held, rfl⟩
    exact ⟨person, held, rfl⟩

/-- A person who holds one slot at most is listed once. -/
theorem nodup_filledOf (apart : (openings.map Opening.wcId).Nodup)
    (valid : Valid fitting (slotsOf openings) holder) :
    ((filledOf openings holder).map Prod.fst).Nodup := by
  have people : (filledOf openings holder).map Prod.fst = (slotsOf openings).filterMap holder := by
    rw [filledOf, List.map_filterMap]
    refine List.filterMap_congr fun slot _ => ?_
    cases holder slot <;> rfl
  rw [people]
  exact (nodup_slotsOf apart).filterMap fun first second person held other =>
    valid.single person first second held other

theorem countP_filledOf_le (apart : (openings.map Opening.wcId).Nodup) {opening : Opening}
    (member : opening ∈ openings) :
    (filledOf openings holder).countP (fun entry => entry.2 = opening.wcId) ≤
      opening.requestedCount := by
  rw [← countP_slotsOf apart member, filledOf, List.countP_filterMap]
  refine List.countP_mono_left fun slot _ counted => ?_
  cases held : holder slot with
  | none =>
      rw [held] at counted
      exact Bool.noConfusion counted
  | some person =>
      rw [held] at counted
      exact counted

end Filled

theorem covers_of_matchCommitments {openings : List Opening} {commitments : List Commitment}
    {coverage : Coverage} (apart : (openings.map Opening.wcId).Nodup)
    (covered : matchCommitments openings commitments = some coverage) :
    Covers openings commitments coverage := by
  have distinct := ((matchCommitments_isSome_iff openings commitments).mp ⟨coverage, covered⟩).1
  rw [matchCommitments_eq] at covered
  split at covered
  · cases covered
  · next sized =>
      obtain ⟨holder, matched, rfl⟩ := Option.map_eq_some_iff.mp covered
      obtain ⟨valid, all⟩ := matchAll_sound (SortedMap.nodup_keys _) valid_none
        (fun _ _ _ held => by cases held) matched
      have listed := nodup_filledOf apart valid
      have entries := SortedMap.entries_ofList_perm listed
      have known : ∀ slot person, holder slot = some person → ∃ item ∈ commitments,
          item.personId = person ∧ slot.1 ∈ item.eligibleWcIds := fun slot person held =>
        (fits_iff distinct).mp (valid.fitting slot person held).2
      refine ⟨(length_keys_byPersonOf commitments).mpr distinct, fun item member => ?_,
        fun person => ?_, fun opening member => ⟨?_, ?_⟩, fun wcId => ?_⟩
      · obtain ⟨slot, held⟩ := all item.personId
          (Or.inl (mem_keys_byPersonOf.mpr (List.mem_map_of_mem member)))
        obtain ⟨other, otherMember, same, eligible⟩ := known slot item.personId held
        obtain rfl := List.inj_on_of_nodup_map distinct otherMember member same
        obtain ⟨opening, offered, center, -⟩ := mem_slotsOf.mp (valid.fitting slot _ held).1
        refine ⟨opening, offered, center ▸ eligible, ?_⟩
        exact (SortedMap.get_ofList_eq_some_iff listed).mpr
          (mem_filledOf.mpr ⟨slot, (valid.fitting slot _ held).1, held, center.symm⟩)
      · rw [coverageOf, SortedMap.mem_keys_ofList, List.mem_map, List.mem_map]
        constructor
        · rintro ⟨⟨other, wcId⟩, found, rfl⟩
          obtain ⟨slot, -, held, -⟩ := mem_filledOf.mp found
          obtain ⟨item, member, same, -⟩ := known slot other held
          exact ⟨item, member, same⟩
        · rintro ⟨item, member, rfl⟩
          obtain ⟨slot, held⟩ := all item.personId
            (Or.inl (mem_keys_byPersonOf.mpr (List.mem_map_of_mem member)))
          exact ⟨(item.personId, slot.1),
            mem_filledOf.mpr ⟨slot, (valid.fitting slot _ held).1, held, rfl⟩, rfl⟩
      · dsimp only [coverageOf]
        rw [SortedMap.get_ofList_eq_some_iff, entries.countP_eq]
        · exact List.mem_map.mpr ⟨opening, member, rfl⟩
        · rw [List.map_map]
          exact apart
      · dsimp only [coverageOf]
        rw [entries.countP_eq]
        exact countP_filledOf_le apart member
      · rw [coverageOf, SortedMap.mem_keys_ofList, List.map_map]
        rfl

/-! ## The order of openings and people -/

theorem matchCommitments_perm {openings otherOpenings : List Opening}
    {commitments otherCommitments : List Commitment} (apart : (openings.map Opening.wcId).Nodup)
    (sameOpenings : openings.Perm otherOpenings) (sameCommitments : commitments.Perm otherCommitments) :
    matchCommitments openings commitments = matchCommitments otherOpenings otherCommitments := by
  by_cases distinct : (commitments.map Commitment.personId).Nodup
  · have slots : slotsOf openings = slotsOf otherOpenings := by
      rw [slotsOf, slotsOf, Ranking.sortBy_eq_of_perm Opening.wcId apart sameOpenings]
    have people : byPersonOf commitments = byPersonOf otherCommitments := by
      refine SortedMap.ofList_eq_of_perm ?_ (sameCommitments.map _)
      rw [map_fst_keyed]
      exact distinct
    have coverages : coverageOf openings commitments = coverageOf otherOpenings otherCommitments := by
      funext holder
      have filled : filledOf openings holder = filledOf otherOpenings holder := by
        rw [filledOf, filledOf, slots]
      rw [coverageOf, coverageOf, people, filled]
      congr 1
      refine SortedMap.ofList_eq_of_perm ?_ (sameOpenings.map _)
      rw [List.map_map]
      exact apart
    rw [matchCommitments_eq, matchCommitments_eq, slots, people, coverages,
      sameCommitments.length_eq]
  · have refused : ∀ (some_ : List Opening) (listed : List Commitment),
        ¬ (listed.map Commitment.personId).Nodup → matchCommitments some_ listed = none := by
      intro some_ listed repeated
      cases found : matchCommitments some_ listed with
      | none => rfl
      | some coverage =>
          exact absurd ((matchCommitments_isSome_iff some_ listed).mp ⟨coverage, found⟩).1 repeated
    rw [refused openings commitments distinct, refused otherOpenings otherCommitments]
    exact fun other => distinct ((sameCommitments.map _).nodup_iff.mpr other)

/-- Coverage is decided exactly, says where everyone goes, does not depend on any order, and its
search terminates. -/
theorem matchCommitments_decides (openings : List Opening) (commitments : List Commitment)
    (apart : (openings.map Opening.wcId).Nodup) :
    ((∃ coverage, matchCommitments openings commitments = some coverage) ↔
      (commitments.map Commitment.personId).Nodup ∧ Placeable openings commitments) ∧
    (∀ coverage, matchCommitments openings commitments = some coverage →
      Covers openings commitments coverage) ∧
    (∀ otherOpenings otherCommitments, openings.Perm otherOpenings →
      commitments.Perm otherCommitments →
      matchCommitments otherOpenings otherCommitments = matchCommitments openings commitments) ∧
    ∀ assign, Solves (fits (byPersonOf commitments)) (slotsOf openings) assign ↔
      assign = augment (fits (byPersonOf commitments)) (slotsOf openings)
        ((slotsOf openings).length + 1) := by
  refine ⟨matchCommitments_isSome_iff openings commitments, fun coverage covered => ?_, ?_, ?_⟩
  · exact covers_of_matchCommitments apart covered
  · intro otherOpenings otherCommitments sameOpenings sameCommitments
    exact (matchCommitments_perm apart sameOpenings sameCommitments).symm
  · exact fun assign => solves_iff

/-- One flexible person and one who is not. -/
def flexibleAndFixed : List Commitment := [⟨1, {1, 2}⟩, ⟨2, {1}⟩]

theorem flexible_person_rematched :
    ∃ coverage, matchCommitments [⟨1, "Saw", 1, []⟩, ⟨2, "Press", 1, []⟩] flexibleAndFixed =
      some coverage ∧ Covers [⟨1, "Saw", 1, []⟩, ⟨2, "Press", 1, []⟩] flexibleAndFixed coverage := by
  have decides := matchCommitments_decides [⟨1, "Saw", 1, []⟩, ⟨2, "Press", 1, []⟩]
    flexibleAndFixed (by decide)
  have found : (matchCommitments [⟨1, "Saw", 1, []⟩, ⟨2, "Press", 1, []⟩] flexibleAndFixed).isSome =
    true := by decide +kernel
  obtain ⟨coverage, covered⟩ := Option.isSome_iff_exists.mp found
  exact ⟨coverage, covered, decides.2.1 coverage covered⟩

end PlantManager.Saturday

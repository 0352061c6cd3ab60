import PlantManager.Staffing.DefaultTargets

/-! # One default target for each person

As long as `save_one` writes no person who by then has another default target, no person ever has
two (`Staffing.DefaultTargets.default_targets`). Its check is about tables that it read
before, and two saves can both pass it (`Staffing.DefaultTargets.bothSave_conflict`).
-/

namespace PlantManager.Staffing.DefaultTargets

open Mapping Ranking Checks Transition
open PlantManager.Roster (stripped)

variable {site : Site} {tables after : Tables}

namespace Tables

/-- A person is one of the default people of a target. -/
def Has (tables : Tables) (person : String) : Target → Prop
  | .workCenter name => (name, person) ∈ tables.exact.keys
  | .group name => (name, person) ∈ tables.grouped.keys

/-- No person has two default targets. -/
def Apart (tables : Tables) : Prop :=
  ∀ person first second, tables.Has person first → tables.Has person second → first = second

end Tables

/-! ## Conflicts -/

theorem length_get_targetIndex (exact groups : NameLists) (person : String) :
    (((targetIndex exact groups).get person).getD []).length =
      ((targetsOf exact groups).map Prod.fst).count person := by
  have grouped := Dictionary.getD_get_groupBy Prod.fst (targetsOf exact groups) person
  rw [targetIndex, Dictionary.get_mapValues, List.count, List.countP_map,
    List.countP_eq_length_filter]
  have sizes : ∀ stored : Option (List (String × Target)),
      ((stored.map (·.map fun target => target.2.label)).getD []).length =
        (stored.getD []).length := by
    intro stored
    cases stored <;> simp
  rw [sizes, grouped]
  exact congrArg List.length (List.filter_congr fun target _ => rfl)

variable {lower : String → String} {rows : List (Row × ℕ)} {row : Row} {loc : String}
  {names : Option (List String)} {updates : Updates}

/-- There are no conflicts exactly if no person is listed twice. -/
theorem conflictsOf_eq_nil_iff {exact groups : NameLists} :
    (conflictsOf lower exact groups).entries = [] ↔
      ((targetsOf exact groups).map Prod.fst).Nodup := by
  have sizes := length_get_targetIndex exact groups
  rw [List.nodup_iff_count_le_one]
  change ((List.filter _ _).map _ = [] ↔ _)
  rw [List.map_eq_nil_iff, List.filter_eq_nil_iff]
  constructor
  · intro none person
    rw [← sizes person]
    cases found : (targetIndex exact groups).get person with
    | none => exact Nat.zero_le 1
    | some targets =>
        exact not_lt.mp fun several => none _ (Dictionary.get_eq_some_iff.mp found)
          (decide_eq_true several)
  · intro single entry member several
    have found := Dictionary.get_eq_some_iff.mpr member
    have atMost := (sizes entry.1).trans_le (single entry.1)
    rw [found] at atMost
    exact absurd (of_decide_eq_true several) (not_lt.mpr atMost)

/-! ## What the reads find -/

theorem targetsIn_namesByTarget_perm (site : Site) (target : String → Target)
    (rows : Dictionary Row ℕ) :
    (targetsIn target (site.namesByTarget rows)).Perm
      (rows.keys.map fun row => (row.2, target row.1)) := by
  have named : targetsIn target (site.namesByTarget rows) =
      ((Dictionary.groupBy (fun row : Row × ℕ => row.1.1) (site.inOrder rows)).entries.flatMap
        Prod.snd).map fun row => (row.1.2, target row.1.1) := by
    rw [List.map_flatMap]
    change List.flatMap _ (List.map _ _) = _
    rw [List.flatMap_map]
    refine List.flatMap_congr fun entry member => ?_
    have found := Dictionary.get_eq_some_iff.mpr member
    have own := Dictionary.getD_get_groupBy (fun row : Row × ℕ => row.1.1) (site.inOrder rows)
      entry.1
    rw [found, Option.getD_some] at own
    rw [List.map_map]
    refine List.map_congr_left fun row isIn => ?_
    rw [own] at isIn
    have same := of_decide_eq_true (List.mem_filter.mp isIn).2
    exact congrArg (fun name => (row.1.2, target name)) same.symm
  rw [named]
  refine ((Dictionary.flatMap_groupBy_perm _ _).map _).trans ?_
  refine ((sortBy_perm _ _).map _).trans (.of_eq ?_)
  rw [Dictionary.keys, List.map_map]
  rfl

/-- The people with their targets as the tables have them. -/
def Tables.listed (tables : Tables) : List (String × Target) :=
  (tables.exact.keys.map fun row => (row.2, .workCenter row.1)) ++
    tables.grouped.keys.map fun row => (row.2, .group row.1)

theorem Tables.mem_listed {person : String} {target : Target} :
    (person, target) ∈ tables.listed ↔ tables.Has person target := by
  rw [listed, List.mem_append, List.mem_map, List.mem_map]
  cases target with
  | workCenter name => simp [Has]
  | group name => simp [Has]

theorem Tables.nodup_listed : tables.listed.Nodup := by
  refine List.nodup_append.mpr ⟨tables.exact.nodup_keys.map ?_, tables.grouped.nodup_keys.map ?_, ?_⟩
  · rintro ⟨one, person⟩ ⟨two, other⟩ same
    simpa [and_comm] using same
  · rintro ⟨one, person⟩ ⟨two, other⟩ same
    simpa [and_comm] using same
  · rintro first isExact second isGrouped rfl
    obtain ⟨row, -, rfl⟩ := List.mem_map.mp isExact
    obtain ⟨other, -, same⟩ := List.mem_map.mp isGrouped
    cases congrArg Prod.snd same

/-- The check of the tables finds nothing exactly if no person has two targets. -/
theorem defaultTargetConflicts_eq_nil_iff :
    (defaultTargetConflicts site tables).entries = [] ↔ tables.Apart := by
  have perm : (targetsOf (exactDefaultsMap site tables) (groupDefaultsMap site tables)).Perm
      tables.listed :=
    (targetsIn_namesByTarget_perm site .workCenter tables.exact).append
      (targetsIn_namesByTarget_perm site .group tables.grouped)
  rw [defaultTargetConflicts, conflictsOf_eq_nil_iff, (perm.map Prod.fst).nodup_iff,
    List.nodup_map_iff_inj_on Tables.nodup_listed]
  constructor
  · intro unique person first second one two
    exact congrArg Prod.snd
      (unique _ (Tables.mem_listed.mpr one) _ (Tables.mem_listed.mpr two) rfl)
  · rintro apart ⟨person, first⟩ one ⟨_, second⟩ two rfl
    exact congrArg (Prod.mk person)
      (apart person first second (Tables.mem_listed.mp one) (Tables.mem_listed.mp two))

/-! ## What the writers leave -/

theorem insertExact_cases {row : Row × ℕ} (inserted : tables.insertExact row = .ok after) :
    after.grouped = tables.grouped ∧
      (after.exact = tables.exact ∨ after.exact = tables.exact.alter row.1 fun _ => row.2) := by
  rw [Tables.insertExact] at inserted
  split at inserted
  · split at inserted
    · cases inserted
    · cases inserted
      exact ⟨rfl, Or.inr rfl⟩
  · cases inserted
    exact ⟨rfl, Or.inl rfl⟩

theorem insertGrouped_cases {row : Row × ℕ} (inserted : tables.insertGrouped row = .ok after) :
    after.exact = tables.exact ∧
      (after.grouped = tables.grouped ∨
        after.grouped = tables.grouped.alter row.1 fun _ => row.2) := by
  rw [Tables.insertGrouped] at inserted
  split at inserted
  · split at inserted
    · split at inserted
      · cases inserted
      · cases inserted
        exact ⟨rfl, Or.inr rfl⟩
    · cases inserted
  · cases inserted
    exact ⟨rfl, Or.inl rfl⟩

/-- Inserting rows for work centers leaves the groups and the other keys. -/
theorem frame_of_insertExact (returned : rows.foldlM Tables.insertExact tables = .ok after) :
    after.grouped = tables.grouped ∧
      ∀ row, row ∉ rows.map Prod.fst → after.exact.get row = tables.exact.get row := by
  refine invariant_of_foldlM (fun now : Tables => now.grouped = tables.grouped ∧
    ∀ row, row ∉ rows.map Prod.fst → now.exact.get row = tables.exact.get row)
    (fun item member before next ⟨groups, others⟩ inserted => ?_) ⟨rfl, fun _ _ => rfl⟩ returned
  obtain ⟨sameGroups, exact⟩ := insertExact_cases inserted
  refine ⟨sameGroups.trans groups, fun row absent => ?_⟩
  rcases exact with same | stored
  · rw [same, others row absent]
  · have different : row ≠ item.1 := fun same => absent (same ▸ List.mem_map_of_mem member)
    rw [stored, Dictionary.get_alter, if_neg different, others row absent]

theorem mem_keys_of_insertExact (returned : rows.foldlM Tables.insertExact tables = .ok after)
    (member : row ∈ after.exact.keys) : row ∈ tables.exact.keys ∨ row ∈ rows.map Prod.fst := by
  by_cases inserted : row ∈ rows.map Prod.fst
  · exact Or.inr inserted
  · obtain ⟨value, found⟩ := Dictionary.mem_keys_iff.mp member
    rw [(frame_of_insertExact returned).2 row inserted] at found
    exact Or.inl (Dictionary.mem_keys_iff.mpr ⟨value, found⟩)

theorem frame_of_insertGrouped (returned : rows.foldlM Tables.insertGrouped tables = .ok after) :
    after.exact = tables.exact ∧
      ∀ row ∈ after.grouped.keys, row ∈ tables.grouped.keys ∨ row ∈ rows.map Prod.fst := by
  refine invariant_of_foldlM (fun now : Tables => now.exact = tables.exact ∧
    ∀ row ∈ now.grouped.keys, row ∈ tables.grouped.keys ∨ row ∈ rows.map Prod.fst)
    (fun item member before next ⟨exact, stored⟩ inserted => ?_) ⟨rfl, fun _ => Or.inl⟩ returned
  obtain ⟨sameExact, grouped⟩ := insertGrouped_cases inserted
  refine ⟨sameExact.trans exact, fun row isRow => ?_⟩
  rcases grouped with same | altered
  · exact stored row (same ▸ isRow)
  · rw [altered, Dictionary.mem_keys_alter] at isRow
    rcases isRow with rfl | before
    · exact Or.inr (List.mem_map_of_mem member)
    · exact stored row before

theorem mem_rowsFor {target : String} {names : List String}
    (member : row ∈ (rowsFor target names).map Prod.fst) : row.1 = target ∧ row.2 ∈ names := by
  rw [rowsFor, List.map_map] at member
  obtain ⟨name, isName, rfl⟩ := List.mem_map.mp member
  exact ⟨rfl, List.fst_mem_of_mem_zipIdx isName⟩

theorem mem_rowsOf (target : String → Target) {lists : NameLists}
    (member : row ∈ (rowsOf lists).map Prod.fst) :
    (row.2, target row.1) ∈ targetsIn target lists := by
  rw [rowsOf, List.map_flatMap] at member
  obtain ⟨entry, isEntry, isRow⟩ := List.mem_flatMap.mp member
  obtain ⟨same, isName⟩ := mem_rowsFor isRow
  exact List.mem_flatMap.mpr ⟨entry, isEntry,
    List.mem_map.mpr ⟨row.2, isName, by rw [same]⟩⟩

/-- Nobody is in two lists that were accepted. -/
theorem nodup_of_normalizeDefaultTargets {exactByCenter groupByName : NameLists}
    {accepted : NameLists × NameLists}
    (returned : normalizeDefaultTargets lower exactByCenter groupByName = .ok accepted) :
    ((targetsOf accepted.1 accepted.2).map Prod.fst).Nodup := by
  rw [normalizeDefaultTargets] at returned
  split at returned
  · rename_i noConflicts
    cases returned
    exact conflictsOf_eq_nil_iff.mp noConflicts
  · cases returned

theorem apart_of_replaceDefaultTargets {exactByCenter groupByName : NameLists}
    (returned : replaceDefaultTargets lower tables exactByCenter groupByName = .ok after) :
    after.Apart := by
  obtain ⟨⟨exact, groups⟩, accepted, written⟩ := bind_eq_ok.mp returned
  obtain ⟨filled, exactWritten, groupsWritten⟩ := bind_eq_ok.mp written
  have unique := List.inj_on_of_nodup_map (nodup_of_normalizeDefaultTargets accepted)
  have nothing : ∀ rows : Dictionary Row ℕ, ∀ row,
      row ∉ (rows.filter fun row _ => (fun _ => false) row).keys := fun rows row member =>
    Bool.false_ne_true (Dictionary.mem_keys_filter.mp member).2
  have ofAccepted : ∀ {person target}, after.Has person target →
      (person, target) ∈ targetsOf exact groups := by
    intro person target has
    cases target with
    | workCenter name =>
        change (name, person) ∈ after.exact.keys at has
        rw [(frame_of_insertGrouped groupsWritten).1] at has
        rcases mem_keys_of_insertExact exactWritten has with kept | inserted
        · exact absurd kept (nothing tables.exact _)
        · exact List.mem_append_left _ (mem_rowsOf .workCenter inserted)
    | group name =>
        rcases (frame_of_insertGrouped groupsWritten).2 _ has with kept | inserted
        · rw [(frame_of_insertExact exactWritten).1] at kept
          exact absurd kept (nothing tables.grouped _)
        · exact List.mem_append_right _ (mem_rowsOf .group inserted)
  intro person first second one two
  exact congrArg Prod.snd (unique (ofAccepted one) (ofAccepted two) rfl)

/-- Nobody of some names has another default target than a work center. -/
def OnlyHere (tables : Tables) (loc : String) (names : List String) : Prop :=
  ∀ held ∈ tables.listed, held.1 ∈ names → held.2 = .workCenter loc

instance (loc : String) (names : List String) : Decidable (OnlyHere tables loc names) :=
  inferInstanceAs (Decidable (∀ held ∈ tables.listed, held.1 ∈ names → held.2 = .workCenter loc))

/-- `save_one` leaves the default people of the groups and of every other work center. -/
theorem frame_of_writeOne (returned : writeOne tables loc updates names = .ok after) :
    after.grouped = tables.grouped ∧
      ∀ row, row.1 ≠ loc → after.exact.get row = tables.exact.get row := by
  cases names with
  | none =>
      cases returned
      cases updates.groups <;> exact ⟨rfl, fun _ _ => rfl⟩
  | some names =>
      obtain ⟨groups, others⟩ := frame_of_insertExact returned
      constructor
      · rw [groups]
        cases updates.groups <;> rfl
      · intro row other
        rw [others row fun member => other (mem_rowsFor member).1]
        have same : ∀ rows : Dictionary Row ℕ,
            (rows.filter fun row _ => (fun row : Row => decide (row.1 ≠ loc)) row).get row =
              rows.get row := fun rows =>
          Option.ext fun value => Dictionary.get_filter_eq_some_iff.trans
            (and_iff_left (decide_eq_true other))
        cases updates.groups <;> exact same tables.exact

theorem has_of_writeOne {names : List String} {person : String} {target : Target}
    (returned : writeOne tables loc updates (some names) = .ok after)
    (has : after.Has person target) :
    tables.Has person target ∧ target ≠ .workCenter loc ∨
      target = .workCenter loc ∧ person ∈ names := by
  cases target with
  | group name =>
      change (name, person) ∈ after.grouped.keys at has
      rw [(frame_of_writeOne returned).1] at has
      exact Or.inl ⟨has, nofun⟩
  | workCenter name =>
      by_cases same : name = loc
      · subst same
        rcases mem_keys_of_insertExact returned has with kept | inserted
        · exact absurd rfl (of_decide_eq_true (Dictionary.mem_keys_filter.mp kept).2)
        · exact Or.inr ⟨rfl, (mem_rowsFor inserted).2⟩
      · obtain ⟨value, found⟩ := Dictionary.mem_keys_iff.mp has
        rw [(frame_of_writeOne returned).2 _ same] at found
        exact Or.inl ⟨Dictionary.mem_keys_iff.mpr ⟨value, found⟩,
          fun equal => same (Target.workCenter.inj equal)⟩

theorem apart_of_writeOne (apart : tables.Apart) (only : ∀ saved ∈ names, OnlyHere tables loc saved)
    (returned : writeOne tables loc updates names = .ok after) : after.Apart := by
  cases names with
  | none =>
      cases returned
      cases updates.groups <;> exact apart
  | some names =>
      have here : ∀ {person target}, tables.Has person target → person ∈ names →
          target = .workCenter loc := fun has isName =>
        only names rfl _ (Tables.mem_listed.mpr has) isName
      intro person first second one two
      rcases has_of_writeOne returned one with ⟨one, notHere⟩ | ⟨rfl, isName⟩
      · rcases has_of_writeOne returned two with ⟨two, -⟩ | ⟨rfl, isName⟩
        · exact apart person first second one two
        · exact absurd (here one isName) notHere
      · rcases has_of_writeOne returned two with ⟨two, notHere⟩ | ⟨rfl, -⟩
        · exact absurd (here two isName) notHere
        · rfl

/-! ## Groups -/

/-- The people of a group as its rows have them. -/
theorem mem_keys_copyGrouped {old new : String} {registered : new ∈ tables.groups.keys} :
    row ∈ (tables.copyGrouped old new registered).grouped.keys ↔
      row ∈ tables.grouped.keys ∨ row.1 = new ∧ (old, row.2) ∈ tables.grouped.keys := by
  refine Dictionary.mem_keys_foldl_alter.trans (or_congr_right ?_)
  constructor
  · rintro ⟨entry, copied, rfl⟩
    obtain ⟨isEntry, same⟩ := List.mem_filter.mp copied
    refine ⟨rfl, of_decide_eq_true same ▸ List.mem_map_of_mem isEntry⟩
  · rintro ⟨isNew, isOld⟩
    obtain ⟨entry, isEntry, same⟩ := List.mem_map.mp isOld
    have isPerson : entry.1.2 = row.2 := (congrArg Prod.snd same :)
    exact ⟨entry, List.mem_filter.mpr ⟨isEntry, decide_eq_true (congrArg Prod.fst same)⟩,
      Prod.ext isNew.symm isPerson⟩

/-- The group that a group's people are in after a rename. -/
def renamed (old new : String) : Target → Target
  | .group name => .group (if name = old then new else name)
  | target => target

theorem has_renameGroup {oldName newName : String} {person : String} {target : Target}
    (nonempty : stripped oldName ≠ "") (given : cutName newName ≠ "")
    (changed : stripped oldName ≠ cutName newName) :
    (renameGroup tables oldName newName).Has person target ↔
      ∃ source, tables.Has person source ∧
        target = renamed (stripped oldName) (cutName newName) source := by
  rw [renameGroup, if_neg (by simp [nonempty, given, changed])]
  cases target with
  | workCenter name =>
      constructor
      · exact fun has => ⟨.workCenter name, has, rfl⟩
      · rintro ⟨source, has, same⟩
        cases source with
        | workCenter other =>
            cases same
            exact has
        | group other => cases same
  | group name =>
      refine Dictionary.mem_keys_filter.trans ?_
      rw [decide_eq_true_iff]
      refine (and_congr_left' mem_keys_copyGrouped).trans ?_
      constructor
      · rintro ⟨inGroup | ⟨isNew, inOld⟩, notOld⟩
        · exact ⟨.group name, inGroup, by rw [renamed, if_neg notOld]⟩
        · exact ⟨.group (stripped oldName), inOld,
            (congrArg Target.group isNew).trans (by rw [renamed, if_pos rfl])⟩
      · rintro ⟨source, has, same⟩
        cases source with
        | workCenter other => cases same
        | group other =>
            rw [renamed, Target.group.injEq] at same
            by_cases isOld : other = stripped oldName
            · rw [if_pos isOld] at same
              subst isOld same
              exact ⟨Or.inr ⟨rfl, has⟩, Ne.symm changed⟩
            · rw [if_neg isOld] at same
              subst same
              exact ⟨Or.inl has, isOld⟩

theorem apart_of_renameGroup {oldName newName : String} (apart : tables.Apart) :
    (renameGroup tables oldName newName).Apart := by
  by_cases idle : stripped oldName = "" ∨ cutName newName = "" ∨ stripped oldName = cutName newName
  · rw [renameGroup, if_pos idle]
    exact apart
  · rw [not_or, not_or] at idle
    obtain ⟨nonempty, given, changed⟩ := idle
    intro person first second one two
    obtain ⟨source, had, rfl⟩ := (has_renameGroup nonempty given changed).mp one
    obtain ⟨other, alsoHad, rfl⟩ := (has_renameGroup nonempty given changed).mp two
    rw [apart person source other had alsoHad]

theorem apart_of_deleteGroup {name : String} (apart : tables.Apart) :
    (deleteGroup tables name).Apart := by
  have fewer : ∀ {person target}, (deleteGroup tables name).Has person target →
      tables.Has person target := by
    intro person target has
    rw [deleteGroup] at has
    split at has
    · exact has
    · cases target with
      | workCenter _ => exact has
      | group _ => exact (Dictionary.mem_keys_filter.mp has).1
  exact fun person first second one two => apart person first second (fewer one) (fewer two)

theorem mem_groupDefaultPeople {name person : String} :
    person ∈ groupDefaultPeople site tables name ↔ tables.Has person (.group name) := by
  rw [groupDefaultPeople, List.mem_map]
  constructor
  · rintro ⟨row, member, rfl⟩
    obtain ⟨isRow, same⟩ := List.mem_filter.mp member
    have isKey := List.mem_map_of_mem (f := Prod.fst) ((sortBy_perm _ _).mem_iff.mp isRow)
    exact of_decide_eq_true same ▸ isKey
  · intro has
    obtain ⟨row, isRow, same⟩ := List.mem_map.mp has
    exact ⟨row, List.mem_filter.mpr ⟨(sortBy_perm _ _).mem_iff.mpr isRow,
      decide_eq_true (congrArg Prod.fst same)⟩, congrArg Prod.snd same⟩

theorem nodup_groupDefaultPeople (site : Site) (tables : Tables) (name : String) :
    (groupDefaultPeople site tables name).Nodup := by
  have keys : ((site.inOrder tables.grouped).map Prod.fst).Nodup :=
    ((sortBy_perm _ _).map Prod.fst).nodup_iff.mpr tables.grouped.distinct
  refine List.Nodup.map_on ?_ (keys.of_map _ |>.filter _)
  intro first isFirst second isSecond same
  obtain ⟨isRow, own⟩ := List.mem_filter.mp isFirst
  obtain ⟨isOther, other⟩ := List.mem_filter.mp isSecond
  exact List.inj_on_of_nodup_map keys isRow isOther
    (Prod.ext ((of_decide_eq_true own).trans (of_decide_eq_true other).symm) same)

/-! ## Steps and runs -/

/-- Nobody whom a call is about to write has another default target. -/
def Call.Unclaimed (tables : Tables) : Call → Prop
  | .writing loc _ (some names) => OnlyHere tables loc names
  | _ => True

instance : DecidablePred (Call.Unclaimed tables)
  | .writing loc _ (some names) => inferInstanceAs (Decidable (OnlyHere tables loc names))
  | .writing _ _ none | .saving _ _ _ | .reading _ _ _ _ | .returned | .raised _ => isTrue trivial

/-- When `save_one` writes, nobody it writes has another default target by then. -/
def Unclaimed (state : State) : Action → Prop
  | .write call => ∀ now ∈ state.calls.get call, now.Unclaimed state.tables
  | _ => True

instance (state : State) : DecidablePred (Unclaimed state)
  | .write call =>
      inferInstanceAs (Decidable (∀ now ∈ state.calls.get call, now.Unclaimed state.tables))
  | .replaceDefaultTargets _ _ _ | .renameGroup _ _ _ | .deleteGroup _ _ | .saveOne _ _ _
  | .readExact _ | .readGroups _ => isTrue trivial

variable {state next : State} {action : Action}

/-- A transaction that commits. -/
inductive Committed (site : Site) (state : State) : Action → Tables → Prop
  | replaced {call : ℕ} {exactByCenter groupByName : NameLists} {tables : Tables}
      (written : replaceDefaultTargets site.lower state.tables exactByCenter groupByName =
        .ok tables) :
      Committed site state (.replaceDefaultTargets call exactByCenter groupByName) tables
  | renamed {call : ℕ} {oldName newName : String} :
      Committed site state (.renameGroup call oldName newName)
        (renameGroup state.tables oldName newName)
  | deleted {call : ℕ} {name : String} :
      Committed site state (.deleteGroup call name) (deleteGroup state.tables name)
  | saved {call : ℕ} {loc : String} {updates : Updates} {names : Option (List String)}
      {tables : Tables} (ready : state.calls.get call = some (.writing loc updates names))
      (written : writeOne state.tables loc updates names = .ok tables) :
      Committed site state (.write call) tables

/-- A step either moves its call on or raises, or it commits and its call returns. -/
inductive Did (site : Site) (state : State) (action : Action) : State → Prop
  | moved {now : Call} (unreturned : now ≠ .returned) :
      Did site state action (state.put action.call now)
  | committed {tables : Tables} (commit : Committed site state action tables) :
      Did site state action { state.put action.call .returned with tables := tables }

theorem did_of_step (taken : step site state action = some next) :
    state.calls.get action.call ≠ some .returned ∧ Did site state action next := by
  have unstarted : ∀ {call}, call ∉ state.calls.keys →
      state.calls.get call ≠ some .returned := fun absent found =>
    absent (Dictionary.mem_keys_iff.mpr ⟨_, found⟩)
  cases action with
  | replaceDefaultTargets call exactByCenter groupByName =>
      rw [step, Option.ite_none_left_eq_some] at taken
      obtain ⟨absent, taken⟩ := taken
      refine ⟨unstarted absent, ?_⟩
      obtain rfl := Option.some.inj taken
      cases written : replaceDefaultTargets site.lower state.tables exactByCenter groupByName with
      | ok tables => exact .committed (.replaced written)
      | error error => exact .moved (by rintro ⟨⟩)
  | renameGroup call oldName newName =>
      rw [step, Option.ite_none_left_eq_some] at taken
      obtain ⟨absent, taken⟩ := taken
      exact ⟨unstarted absent, Option.some.inj taken ▸ .committed .renamed⟩
  | deleteGroup call name =>
      rw [step, Option.ite_none_left_eq_some] at taken
      obtain ⟨absent, taken⟩ := taken
      exact ⟨unstarted absent, Option.some.inj taken ▸ .committed .deleted⟩
  | saveOne call loc updates =>
      rw [step, Option.ite_none_left_eq_some] at taken
      obtain ⟨absent, taken⟩ := taken
      refine ⟨unstarted absent, Option.some.inj taken ▸ .moved ?_⟩
      rw [saveOne]
      split <;> rintro ⟨⟩
  | readExact call =>
      rw [step] at taken
      split at taken
      · rename_i found
        refine ⟨fun returned => ?_, Option.some.inj taken ▸ .moved (by rintro ⟨⟩)⟩
        cases found.symm.trans returned
      · cases taken
  | readGroups call =>
      rw [step] at taken
      split at taken
      · rename_i found
        refine ⟨fun returned => (by cases found.symm.trans returned), ?_⟩
        split at taken
        · exact Option.some.inj taken ▸ .moved (by rintro ⟨⟩)
        · exact Option.some.inj taken ▸ .moved (by rintro ⟨⟩)
      · cases taken
  | write call =>
      rw [step] at taken
      split at taken
      · rename_i loc updates names found
        refine ⟨fun returned => (by cases found.symm.trans returned), ?_⟩
        obtain rfl := Option.some.inj taken
        cases written : writeOne state.tables loc updates names with
        | ok tables => exact .committed (.saved found written)
        | error error => exact .moved (by rintro ⟨⟩)
      · cases taken

theorem apart_step (apart : state.tables.Apart) (unclaimed : Unclaimed state action)
    (taken : step site state action = some next) : next.tables.Apart := by
  cases (did_of_step taken).2 with
  | moved => exact apart
  | committed commit =>
      cases commit with
      | replaced written => exact apart_of_replaceDefaultTargets written
      | renamed => exact apart_of_renameGroup apart
      | deleted => exact apart_of_deleteGroup apart
      | saved ready written =>
          refine apart_of_writeOne apart (fun saved isSaved => ?_) written
          obtain rfl := Option.mem_def.mp isSaved
          exact unclaimed _ ready

theorem apart_of_reachable {initial : State} (apart : initial.tables.Apart)
    (reachable : Reachable initial (step site) Unclaimed state) : state.tables.Apart :=
  @Reachable.invariant _ _ _ _ _ (fun state => state.tables.Apart) apart
    (fun _ _ _ kept unclaimed taken => apart_step kept unclaimed taken) _ reachable

/-- A call that returned takes no more steps. -/
theorem returned_step {call : ℕ} (returned : state.calls.get call = some .returned)
    (taken : step site state action = some next) : next.calls.get call = some .returned := by
  obtain ⟨unreturned, did⟩ := did_of_step taken
  have other : call ≠ action.call := fun same => unreturned (same ▸ returned)
  have kept : ∀ now, (state.put action.call now).calls.get call = some .returned := by
    intro now
    rw [State.put, Dictionary.get_alter, if_neg other]
    exact returned
  cases did with
  | moved => exact kept _
  | committed => exact kept _

theorem returned_run {call : ℕ} {actions : List Action} {last : State}
    (returned : state.calls.get call = some .returned)
    (ran : run (step site) state actions = some last) : last.calls.get call = some .returned := by
  induction actions generalizing state with
  | nil => exact Option.some.inj ran ▸ returned
  | cons action rest ih =>
      obtain ⟨next, taken, later⟩ := Option.bind_eq_some_iff.mp ran
      exact ih (returned_step returned taken) later

/-- No step of a call that raises changes a table. -/
theorem tables_of_raised {error : Raised} {later : List Action} {last : State}
    (taken : step site state action = some next) (ran : run (step site) next later = some last)
    (raised : last.calls.get action.call = some (.raised error)) : next.tables = state.tables := by
  cases (did_of_step taken).2 with
  | moved => rfl
  | @committed tables commit =>
      have now : ({ state.put action.call .returned with tables := tables } : State).calls.get
          action.call = some .returned := by
        change (state.calls.alter _ _).get _ = _
        rw [Dictionary.get_alter, if_pos rfl]
      cases (returned_run now ran).symm.trans raised

/-! ## The claim -/

/-- No step of a call that raises in the end changes a table. -/
def RaisedChangesNothing (site : Site) (initial : State) : Prop :=
  ∀ before state action next later last error,
    run (step site) initial before = some state → step site state action = some next →
      run (step site) next later = some last →
        last.calls.get action.call = some (.raised error) → next.tables = state.tables

/-- What `save_one` writes are the default people of its work center, and its reads write nothing. -/
def SavesItsOwn (site : Site) : Prop :=
  (∀ state call next loc updates names,
    state.calls.get call = some (.writing loc updates names) →
      step site state (.write call) = some next →
        next.tables.grouped = state.tables.grouped ∧
          ∀ row, row.1 ≠ loc → next.tables.exact.get row = state.tables.exact.get row) ∧
    ∀ state next call, (∃ loc updates, step site state (.saveOne call loc updates) = some next) ∨
      step site state (.readExact call) = some next ∨
        step site state (.readGroups call) = some next → next.tables = state.tables

/-- A rename gives a group the people of both, each of them once. -/
def RenamesToUnion (site : Site) : Prop :=
  ∀ tables oldName newName, stripped oldName ≠ "" → cutName newName ≠ "" →
    stripped oldName ≠ cutName newName →
      (groupDefaultPeople site (renameGroup tables oldName newName) (cutName newName)).Nodup ∧
        groupDefaultPeople site (renameGroup tables oldName newName) (stripped oldName) = [] ∧
          ∀ person,
            person ∈ groupDefaultPeople site (renameGroup tables oldName newName)
              (cutName newName) ↔
                person ∈ groupDefaultPeople site tables (cutName newName) ∨
                  person ∈ groupDefaultPeople site tables (stripped oldName)

theorem savesItsOwn (site : Site) : SavesItsOwn site := by
  constructor
  · intro state call next loc updates names ready taken
    cases (did_of_step taken).2 with
    | moved => exact ⟨rfl, fun _ _ => rfl⟩
    | committed commit =>
        cases commit with
        | saved found written =>
            cases ready.symm.trans found
            exact frame_of_writeOne written
  · rintro state next call (⟨loc, updates, taken⟩ | taken | taken)
    · cases (did_of_step taken).2 with
      | moved => rfl
      | committed commit => cases commit
    · cases (did_of_step taken).2 with
      | moved => rfl
      | committed commit => cases commit
    · cases (did_of_step taken).2 with
      | moved => rfl
      | committed commit => cases commit

theorem renamesToUnion (site : Site) : RenamesToUnion site := by
  intro tables oldName newName nonempty given changed
  have has := fun person target =>
    @has_renameGroup tables oldName newName person target nonempty given changed
  refine ⟨nodup_groupDefaultPeople site _ _, ?_, fun person => ?_⟩
  · refine List.eq_nil_iff_forall_not_mem.mpr fun person member => ?_
    obtain ⟨source, -, same⟩ := (has person _).mp (mem_groupDefaultPeople.mp member)
    cases source with
    | workCenter name => cases same
    | group name =>
        rw [renamed, Target.group.injEq] at same
        split at same
        · exact changed same
        · rename_i notOld
          exact notOld same.symm
  · rw [mem_groupDefaultPeople, mem_groupDefaultPeople, mem_groupDefaultPeople, has]
    constructor
    · rintro ⟨source, had, same⟩
      cases source with
      | workCenter name => cases same
      | group name =>
          rw [renamed, Target.group.injEq] at same
          split at same
          · rename_i isOld
            exact Or.inr (isOld ▸ had)
          · exact Or.inl (same ▸ had)
    · rintro (inNew | inOld)
      · exact ⟨.group (cutName newName), inNew, by rw [renamed, if_neg (Ne.symm changed)]⟩
      · exact ⟨.group (stripped oldName), inOld, by rw [renamed, if_pos rfl]⟩

/-- If nobody has another default target when `save_one` writes them, nobody ever has two. In any
order of steps a call that raises changes nothing, `save_one` changes its own work center only, and
a rename unites two groups. -/
theorem default_targets {site : Site} {initial : State}
    (apart : (defaultTargetConflicts site initial.tables).entries = []) :
    (∀ state, Reachable initial (step site) Unclaimed state →
      (defaultTargetConflicts site state.tables).entries = [] ∧ state.tables.Apart) ∧
      RaisedChangesNothing site initial ∧ SavesItsOwn site ∧ RenamesToUnion site := by
  have begins := defaultTargetConflicts_eq_nil_iff.mp apart
  refine ⟨fun state reachable => ?_, ?_, savesItsOwn site, renamesToUnion site⟩
  · have kept := apart_of_reachable begins reachable
    exact ⟨defaultTargetConflicts_eq_nil_iff.mpr kept, kept⟩
  · intro before state action next later last error _ taken ran raised
    exact tables_of_raised taken ran raised

/-! Two tabs of the settings page put the same person into two work centers. -/

def twoTabs : Site where
  lower := id
  collate := String.length

def emptyTables : State where
  tables :=
    { people := ["Ana"]
      workCenters := Dictionary.ofItems id (fun _ => none) ["Saw", "Chop"]
      groups := ∅
      exact := ∅
      grouped := ∅
      exactRefs := nofun
      groupedRefs := nofun }
  calls := ∅

def savingAna (call : ℕ) (loc : String) : Action :=
  .saveOne call loc ⟨none, some [" Ana "]⟩

/-- Both saves read before either writes. -/
def bothSave : List Action :=
  [savingAna 1 "Saw", savingAna 2 "Chop", .readExact 1, .readExact 2, .readGroups 1, .readGroups 2,
    .write 1, .write 2]

/-- The second save reads after the first has written, and raises. -/
def oneSaves : List Action :=
  [savingAna 1 "Saw", savingAna 2 "Chop", .readExact 1, .readGroups 1, .write 1, .readExact 2,
    .readGroups 2]

theorem oneSaves_runs : (run (step twoTabs) emptyTables oneSaves).isSome := by decide +kernel

theorem oneSaves_permitted : Permitted (step twoTabs) Unclaimed emptyTables oneSaves := by
  decide +kernel

theorem default_targets_oneSaves :
    (defaultTargetConflicts twoTabs ((run (step twoTabs) emptyTables oneSaves).get
      oneSaves_runs).tables).entries = [] :=
  ((default_targets (by decide +kernel)).1 _
    (Reachable.initial.run_permitted oneSaves_permitted (Option.some_get _).symm)).1

theorem bothSave_conflict :
    (defaultTargetConflicts twoTabs emptyTables.tables).entries = [] ∧
      (run (step twoTabs) emptyTables bothSave).map
          (fun state => (defaultTargetConflicts twoTabs state.tables).entries) =
        some [("Ana", ["work_center:Chop", "work_center:Saw"])] := by
  decide +kernel

end PlantManager.Staffing.DefaultTargets

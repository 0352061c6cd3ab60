import PlantManager.Roster.People
import PlantManager.Transition.Again

/-! # Names in the roster sync

A sync writes the labels one by one, so a label that another row holds still ends the transaction.
The labels of a roster are distinct, hence the only rows in the way are those that the loop has not
renamed yet: archived people, and employees that come later (`Roster.Unclaimed`).
A sync does all it should if and only if no label is held like that
(`Roster.sync_iff`).
-/

namespace PlantManager.Roster

open Transition

variable {δ ρ α : Type} {casefold : List Char → List Char}

/-! ## Snapshots that are accepted -/

theorem collect_valid {read : ρ → Option (ℤ × α)} {rows : List (Option ρ)} {kept : List (ℤ × α)}
    (distinct : (kept.map Prod.fst).Nodup) (valid : (collect read rows kept).2 = 0) :
    (collect read rows kept).1 = kept ++ rows.filterMap (·.bind read) ∧
      ((collect read rows kept).1.map Prod.fst).Nodup := by
  induction rows generalizing kept with
  | nil =>
      refine ⟨?_, distinct⟩
      rw [List.filterMap_nil, List.append_nil]
      rfl
  | cons row rest ih =>
      unfold collect at valid ⊢
      cases found : row.bind read with
      | none =>
          rw [found] at valid
          cases valid
      | some entry =>
          rw [found] at valid
          dsimp only at valid ⊢
          by_cases repeated : entry.1 ∈ kept.map Prod.fst
          · rw [if_pos repeated] at valid
            cases valid
          · rw [if_neg repeated] at valid ⊢
            have fresh : ((kept ++ [entry]).map Prod.fst).Nodup := by
              rw [List.map_append, List.map_singleton]
              exact distinct.append (List.nodup_singleton _)
                (List.disjoint_singleton.mpr repeated)
            obtain ⟨all, once⟩ := ih fresh valid
            have same : (row :: rest).filterMap (·.bind read) =
                entry :: rest.filterMap (·.bind read) := by
              simp [found]
            rw [same, all]
            rw [all] at once
            exact ⟨List.append_assoc _ _ _, once⟩

theorem readEmployee_id {payload : EmployeePayload δ} {entry : ℤ × Employee δ}
    (found : readEmployee payload = some entry) : entry.1 = entry.2.id := by
  unfold readEmployee at found
  split at found
  · split at found
    · cases found
    · cases found
      rfl
  · cases found

structure Accepted (snapshot : Snapshot δ) : Prop where
  ids : (snapshot.roster.map Employee.id).Nodup
  statuses : (snapshot.statusOf.map Prod.fst).Nodup
  active : ∀ employee ∈ snapshot.roster, (employee.id, true) ∈ snapshot.statusOf

variable {snapshot : Snapshot δ} {employee : Employee δ} {people : People δ}

theorem accepted_of_error_eq_none (valid : employeeSnapshotError snapshot = none) :
    Accepted snapshot := by
  obtain ⟨employees, statuses, pulledAt⟩ := snapshot
  unfold employeeSnapshotError at valid
  cases employees with
  | none => cases valid
  | some activeRows =>
  cases statuses with
  | none => cases valid
  | some statusRows =>
  unfold rowsError at valid
  dsimp only at valid
  split at valid
  · cases valid
  split at valid
  · cases valid
  split at valid
  · cases valid
  split at valid
  · cases valid
  next invalidActive invalidStatus contradicted =>
  have nothing : ∀ {β : Type}, (([] : List (ℤ × β)).map Prod.fst).Nodup := List.nodup_nil
  obtain ⟨actives, once⟩ := collect_valid nothing (of_not_not invalidActive)
  obtain ⟨known, single⟩ := collect_valid nothing (of_not_not invalidStatus)
  rw [actives, List.nil_append] at once
  rw [known, List.nil_append] at single
  rw [actives, known, List.nil_append, List.nil_append] at contradicted
  have agreed := List.filter_eq_nil_iff.mp (List.length_eq_zero_iff.mp (of_not_not contradicted))
  have named : ∀ entry ∈ activeRows.filterMap (·.bind readEmployee), entry.1 = entry.2.id := by
    intro entry member
    obtain ⟨row, -, found⟩ := List.mem_filterMap.mp member
    obtain ⟨payload, rfl, read⟩ := Option.bind_eq_some_iff.mp found
    exact readEmployee_id read
  have roster : Snapshot.roster ⟨some activeRows, some statusRows, pulledAt⟩ =
      (activeRows.filterMap (·.bind readEmployee)).map Prod.snd := by
    unfold Snapshot.roster
    rw [Option.getD_some, List.map_filterMap]
  refine ⟨?_, single, ?_⟩
  · rw [roster, List.map_map]
    rw [List.map_congr_left named] at once
    exact once
  · intro employee member
    rw [roster] at member
    obtain ⟨entry, inside, rfl⟩ := List.mem_map.mp member
    have status := agreed entry inside
    rw [decide_eq_true_iff, not_not] at status
    obtain ⟨before, after, same, -⟩ := List.lookup_eq_some_iff.mp status
    change (entry.2.id, true) ∈ statusRows.filterMap (·.bind readStatus)
    rw [same, ← named entry inside]
    exact List.mem_append_right _ List.mem_cons_self

theorem Accepted.not_inactive (accepted : Accepted snapshot) (member : employee ∈ snapshot.roster) :
    employee.id ∉ snapshot.inactiveIds := by
  intro inactive
  obtain ⟨status, found, same⟩ := List.mem_map.mp inactive
  obtain ⟨present, archived⟩ := List.mem_filter.mp found
  have once := List.inj_on_of_nodup_map accepted.statuses present (accepted.active employee member)
    same
  subst once
  cases archived

/-! ## Labels -/

theorem words_mem_named : ∀ entry ∈ snapshot.named, ∀ part ∈ entry.2, ' ' ∉ part := by
  intro entry member part inside
  obtain ⟨employee, -, rfl⟩ := List.mem_map.mp member
  exact space_not_mem_words inside

theorem exists_label (casefold : List Char → List Char) (member : employee ∈ snapshot.roster) :
    ∃ label, (employee.id, label) ∈ rosterLabels casefold snapshot.named ∧
      snapshot.label casefold employee.id = String.ofList label := by
  have listed : employee.id ∈ (rosterLabels casefold snapshot.named).map Prod.fst := by
    rw [map_fst_rosterLabels]
    exact List.mem_map.mpr ⟨_, List.mem_map_of_mem member, rfl⟩
  cases found : (rosterLabels casefold snapshot.named).lookup employee.id with
  | none =>
      obtain ⟨entry, inside, same⟩ := List.mem_map.mp listed
      have different := List.lookup_eq_none_iff.mp found entry inside
      rw [same] at different
      exact absurd rfl (bne_iff_ne.mp different)
  | some label =>
      obtain ⟨before, after, same, -⟩ := List.lookup_eq_some_iff.mp found
      refine ⟨label, ?_, ?_⟩
      · rw [same]
        exact List.mem_append_right _ List.mem_cons_self
      · unfold Snapshot.label
        rw [found, Option.getD_some]

/-- No two employees of a snapshot get one label. -/
theorem label_injective {first second : Employee δ} (one : first ∈ snapshot.roster)
    (two : second ∈ snapshot.roster)
    (same : snapshot.label casefold first.id = snapshot.label casefold second.id) :
    first.id = second.id := by
  obtain ⟨label, inside, known⟩ := exists_label casefold one
  obtain ⟨other, present, named⟩ := exists_label casefold two
  rw [known, named] at same
  exact rosterLabels_injective words_mem_named inside present (String.ofList_injective same)

/-! ## One row -/

/-- What a write of one employee leaves. -/
structure Wrote (people : People δ) (employee : Employee δ) (label : String) (after : People δ) :
    Prop where
  here : ∃ person ∈ after.rows, person.odooId = some employee.id
  written : ∀ person ∈ after.rows, person.odooId = some employee.id →
    person.name = label ∧ person.active = true
  others : ∀ person, person.odooId ≠ some employee.id →
    (person ∈ after.rows ↔ person ∈ people.rows)

variable {after : People δ} {employees : List (Employee δ)}

theorem upsert_wrote {label : String} {pulledAt : ℤ}
    (wrote : people.upsert employee label pulledAt = .ok after) :
    Wrote people employee label after := by
  unfold People.upsert at wrote
  split at wrote
  · cases wrote
  split at wrote
  · next known =>
      obtain ⟨old, member, here⟩ := known
      cases wrote
      refine ⟨⟨old.refresh employee label pulledAt, ?_, here⟩, ?_, ?_⟩
      · exact List.mem_map.mpr ⟨old, member, if_pos here⟩
      · intro person inside identified
        obtain ⟨source, -, rfl⟩ := List.mem_map.mp inside
        split
        · exact ⟨rfl, rfl⟩
        · next other =>
            rw [if_neg other] at identified
            exact absurd identified other
      · intro person foreign
        constructor
        · intro inside
          obtain ⟨source, present, same⟩ := List.mem_map.mp inside
          split at same
          · next target =>
              subst same
              exact absurd target foreign
          · exact same ▸ present
        · exact fun inside => List.mem_map.mpr ⟨person, inside, if_neg foreign⟩
  · next unknown =>
      cases wrote
      refine ⟨⟨newPerson employee label pulledAt, ?_, rfl⟩, ?_, ?_⟩
      · exact List.mem_append_right _ List.mem_cons_self
      · intro person inside identified
        rcases List.mem_append.mp inside with old | new
        · exact absurd ⟨person, old, identified⟩ unknown
        · rw [List.mem_singleton] at new
          subst new
          exact ⟨rfl, rfl⟩
      · intro person foreign
        refine ⟨fun inside => ?_, List.mem_append_left _⟩
        rcases List.mem_append.mp inside with old | new
        · exact old
        · rw [List.mem_singleton] at new
          subst new
          exact absurd rfl foreign

theorem upsert_ok_iff {label : String} {pulledAt : ℤ} :
    (∃ after, people.upsert employee label pulledAt = .ok after) ↔
      ¬ people.Taken employee.id label := by
  unfold People.upsert
  constructor
  · rintro ⟨after, wrote⟩ taken
    rw [dif_pos taken] at wrote
    cases wrote
  · intro free
    rw [dif_neg free]
    split <;> exact ⟨_, rfl⟩

/-! ## The loop -/

variable {labelOf : ℤ → String} {pulledAt : ℤ}

/-- What the loop leaves. -/
structure WroteAll (labelOf : ℤ → String) (people : People δ) (employees : List (Employee δ))
    (after : People δ) : Prop where
  here : ∀ employee ∈ employees, ∃ person ∈ after.rows, person.odooId = some employee.id
  written : ∀ employee ∈ employees, ∀ person ∈ after.rows, person.odooId = some employee.id →
    person.name = labelOf employee.id ∧ person.active = true
  others : ∀ person, (∀ employee ∈ employees, person.odooId ≠ some employee.id) →
    (person ∈ after.rows ↔ person ∈ people.rows)

theorem upsertAll_wrote (distinct : (employees.map Employee.id).Nodup)
    (wrote : people.upsertAll labelOf pulledAt employees = .ok after) :
    WroteAll labelOf people employees after := by
  induction employees generalizing people with
  | nil =>
      cases wrote
      exact ⟨nofun, nofun, fun _ _ => Iff.rfl⟩
  | cons employee rest ih =>
      unfold People.upsertAll at wrote
      cases first : people.upsert employee (labelOf employee.id) pulledAt with
      | error _ =>
          rw [first] at wrote
          cases wrote
      | ok next =>
          rw [first] at wrote
          obtain ⟨fresh, once⟩ := List.nodup_cons.mp distinct
          have one := upsert_wrote first
          have later := ih once wrote
          have foreign : ∀ person : Person δ, person.odooId = some employee.id →
              ∀ other ∈ rest, person.odooId ≠ some other.id := by
            intro person here other member same
            rw [here, Option.some.injEq] at same
            exact fresh (same ▸ List.mem_map_of_mem member)
          refine ⟨?_, ?_, ?_⟩
          · intro wanted member
            rcases List.mem_cons.mp member with rfl | inside
            · obtain ⟨person, present, here⟩ := one.here
              exact ⟨person, (later.others person (foreign person here)).mpr present, here⟩
            · exact later.here wanted inside
          · intro wanted member person present here
            rcases List.mem_cons.mp member with rfl | inside
            · exact one.written person ((later.others person (foreign person here)).mp present)
                here
            · exact later.written wanted inside person present here
          · intro person apart
            rw [later.others person fun other member =>
              apart other (List.mem_cons_of_mem _ member)]
            exact one.others person (apart employee List.mem_cons_self)

/-- No row has the label of an employee, except rows that the loop renames by then. -/
def Unclaimed (labelOf : ℤ → String) (people : People δ) (employees : List (Employee δ)) : Prop :=
  ∀ earlier employee later, employees = earlier ++ employee :: later →
    ∀ person ∈ people.rows, person.name = labelOf employee.id →
      person.odooId = some employee.id ∨ ∃ before ∈ earlier, person.odooId = some before.id

theorem unclaimed_cons {rest : List (Employee δ)} {next : People δ}
    (one : Wrote people employee (labelOf employee.id) next)
    (labels : ∀ other ∈ rest, labelOf employee.id ≠ labelOf other.id)
    (free : ¬ people.Taken employee.id (labelOf employee.id)) :
    Unclaimed labelOf people (employee :: rest) ↔ Unclaimed labelOf next rest := by
  constructor
  · intro unclaimed earlier other later same person present claims
    by_cases own : person.odooId = some employee.id
    · have inside : other ∈ rest := same ▸ List.mem_append_right _ List.mem_cons_self
      exact absurd ((one.written person present own).1.symm.trans claims) (labels other inside)
    · have old := (one.others person own).mp present
      rcases unclaimed (employee :: earlier) other later (by rw [same]; rfl) person old claims with
        itself | ⟨before, member, here⟩
      · exact .inl itself
      · rcases List.mem_cons.mp member with rfl | inside
        · exact absurd here own
        · exact .inr ⟨before, inside, here⟩
  · intro unclaimed earlier other later same person present claims
    cases earlier with
    | nil =>
        obtain ⟨rfl, rfl⟩ := List.cons.inj same
        by_contra others
        rw [not_or] at others
        exact free ⟨person, present, claims, others.1⟩
    | cons first earlier =>
        obtain ⟨rfl, tail⟩ := List.cons.inj same
        by_cases own : person.odooId = some employee.id
        · exact .inr ⟨employee, List.mem_cons_self, own⟩
        · rcases unclaimed earlier other later tail person ((one.others person own).mpr present)
            claims with itself | ⟨before, member, here⟩
          · exact .inl itself
          · exact .inr ⟨before, List.mem_cons_of_mem _ member, here⟩

/-- The loop goes through if and only if no label is held by a row that is still to be renamed or
never is. -/
theorem upsertAll_ok_iff
    (labels : employees.Pairwise fun first second => labelOf first.id ≠ labelOf second.id) :
    (∃ after, people.upsertAll labelOf pulledAt employees = .ok after) ↔
      Unclaimed labelOf people employees := by
  induction employees generalizing people with
  | nil =>
      refine ⟨fun _ earlier employee later same => ?_, fun _ => ⟨people, rfl⟩⟩
      cases earlier <;> cases same
  | cons employee rest ih =>
      obtain ⟨apart, labels⟩ := List.pairwise_cons.mp labels
      unfold People.upsertAll
      cases first : people.upsert employee (labelOf employee.id) pulledAt with
      | error _ =>
          refine ⟨nofun, fun unclaimed => ?_⟩
          have free : ¬ people.Taken employee.id (labelOf employee.id) := by
            rintro ⟨person, present, claims, foreign⟩
            rcases unclaimed [] employee rest rfl person present claims with itself | ⟨_, none, _⟩
            · exact foreign itself
            · cases none
          have succeeds : ∃ after, people.upsert employee (labelOf employee.id) pulledAt = .ok after :=
            upsert_ok_iff.mpr free
          obtain ⟨after, wrote⟩ := succeeds
          rw [first] at wrote
          cases wrote
      | ok next =>
          have free := upsert_ok_iff.mp ⟨next, first⟩
          rw [unclaimed_cons (upsert_wrote first) apart free]
          exact ih labels

/-! ## The sync -/

theorem People.eq_of_odooId (people : People δ) {first second : Person δ} {id : ℤ}
    (one : first ∈ people.rows) (two : second ∈ people.rows) (here : first.odooId = some id)
    (there : second.odooId = some id) : first = second := by
  by_contra different
  have : Std.Symm (@Person.Apart δ) := ⟨fun _ _ => Person.Apart.symm⟩
  have apart := people.distinct.forall one two different
  exact apart.2 id here there

/-- What a sync is to leave: the labels of the active employees, the archived people inactive, and
all others as they were. -/
structure Synced (casefold : List Char → List Char) (people : People δ) (snapshot : Snapshot δ)
    (after : People δ) : Prop where
  labelled : ∀ employee ∈ snapshot.roster, ∃ person ∈ after.rows,
    person.odooId = some employee.id ∧ person.name = snapshot.label casefold employee.id
  archived : ∀ id, (∃ person ∈ people.rows, person.odooId = some id ∧ person.active = true) →
    ((∃ person ∈ after.rows, person.odooId = some id ∧ person.active = false) ↔
      id ∈ snapshot.inactiveIds)
  kept : ∀ person, (∀ id, person.odooId = some id →
      id ∉ snapshot.roster.map Employee.id ∧ id ∉ snapshot.statusOf.map Prod.fst) →
    (person ∈ after.rows ↔ person ∈ people.rows)

/-- No label of the snapshot is held by a row that the loop does not rename before. -/
def Snapshot.Unclaimed (casefold : List Char → List Char) (snapshot : Snapshot δ)
    (people : People δ) : Prop :=
  Roster.Unclaimed (snapshot.label casefold) people snapshot.roster

theorem Person.archive_active {person : Person δ} {inactiveIds : List ℤ}
    (active : (person.archive inactiveIds pulledAt).active = false) (was : person.active = true) :
    ∃ id, person.odooId = some id ∧ id ∈ inactiveIds := by
  unfold Person.archive at active
  split at active
  · next found =>
      obtain ⟨⟨id, here, member⟩, -⟩ := found
      exact ⟨id, here, member⟩
  · rw [was] at active
    cases active

theorem Person.archive_of_mem {person : Person δ} {inactiveIds : List ℤ} {id : ℤ}
    (here : person.odooId = some id) (member : id ∈ inactiveIds) :
    (person.archive inactiveIds pulledAt).active = false := by
  unfold Person.archive
  split
  · rfl
  · next other =>
      by_contra active
      exact other ⟨⟨id, here, member⟩, Bool.eq_true_of_not_eq_false active⟩

theorem Person.archive_of_not_mem {person : Person δ} {inactiveIds : List ℤ}
    (others : ∀ id, person.odooId = some id → id ∉ inactiveIds) :
    person.archive inactiveIds pulledAt = person := by
  unfold Person.archive
  rw [if_neg]
  rintro ⟨⟨id, here, member⟩, -⟩
  exact others id here member

theorem WroteAll.synced (accepted : Accepted snapshot)
    (wrote : WroteAll (snapshot.label casefold) people snapshot.roster after) :
    Synced casefold people snapshot (after.archive snapshot.inactiveIds snapshot.pulledAt) where
  labelled := by
    intro employee member
    obtain ⟨person, present, here⟩ := wrote.here employee member
    obtain ⟨name, identified⟩ := person.archive_keys snapshot.inactiveIds snapshot.pulledAt
    refine ⟨_, List.mem_map_of_mem present, identified.trans here, ?_⟩
    exact name.trans (wrote.written employee member person present here).1
  archived := by
    rintro id ⟨person, present, here, active⟩
    constructor
    · rintro ⟨_, member, identified, inactive⟩
      obtain ⟨source, inside, rfl⟩ := List.mem_map.mp member
      rw [(source.archive_keys _ _).2] at identified
      have was : source.active = true := by
        by_cases employed : ∃ employee ∈ snapshot.roster, id = employee.id
        · obtain ⟨employee, listed, rfl⟩ := employed
          exact (wrote.written employee listed source inside identified).2
        · have old : source ∈ people.rows := by
            refine (wrote.others source fun employee listed same => ?_).mp inside
            rw [identified, Option.some.injEq] at same
            exact employed ⟨employee, listed, same⟩
          rw [people.eq_of_odooId old present identified here]
          exact active
      obtain ⟨other, same, archived⟩ := Person.archive_active inactive was
      rw [identified, Option.some.injEq] at same
      exact same ▸ archived
    · intro archived
      have still : person ∈ after.rows := by
        refine (wrote.others person fun employee listed same => ?_).mpr present
        rw [here, Option.some.injEq] at same
        exact accepted.not_inactive listed (same ▸ archived)
      exact ⟨_, List.mem_map_of_mem still, (person.archive_keys _ _).2.trans here,
        Person.archive_of_mem here archived⟩
  kept := by
    intro person apart
    have foreign : ∀ employee ∈ snapshot.roster, person.odooId ≠ some employee.id :=
      fun employee listed same => (apart _ same).1 (List.mem_map_of_mem listed)
    have untouched : ∀ source : Person δ, source.odooId = person.odooId →
        source.archive snapshot.inactiveIds snapshot.pulledAt = source := by
      intro source same
      refine Person.archive_of_not_mem fun id here member => ?_
      obtain ⟨status, found, rfl⟩ := List.mem_map.mp member
      exact (apart _ (same ▸ here)).2 (List.mem_map_of_mem (List.mem_of_mem_filter found))
    rw [← wrote.others person foreign]
    constructor
    · intro member
      obtain ⟨source, inside, rfl⟩ := List.mem_map.mp member
      rw [untouched source (source.archive_keys _ _).2.symm]
      exact inside
    · exact fun inside => List.mem_map.mpr ⟨person, inside, untouched person rfl⟩

/-- A sync does what it should if and only if no label is claimed. -/
theorem sync_iff (people : People δ) (snapshot : Snapshot δ)
    (valid : employeeSnapshotError snapshot = none) :
    (∃ after, sync casefold people snapshot = .ok after ∧
      Synced casefold people snapshot after) ↔ snapshot.Unclaimed casefold people := by
  have accepted := accepted_of_error_eq_none valid
  have labels : snapshot.roster.Pairwise fun first second =>
      snapshot.label casefold first.id ≠ snapshot.label casefold second.id := by
    refine (List.pairwise_map.mp accepted.ids).imp_of_mem ?_
    exact fun one two different same => different (label_injective one two same)
  rw [Snapshot.Unclaimed, ← upsertAll_ok_iff labels]
  unfold sync
  rw [valid]
  constructor
  · rintro ⟨after, done, -⟩
    cases wrote : people.upsertAll (snapshot.label casefold) snapshot.pulledAt snapshot.roster with
    | error _ =>
        rw [wrote] at done
        cases done
    | ok next => exact ⟨next, rfl⟩
  · rintro ⟨next, wrote⟩
    refine ⟨next.archive snapshot.inactiveIds snapshot.pulledAt, ?_,
      (upsertAll_wrote accepted.ids wrote).synced accepted⟩
    rw [wrote]
    rfl

/-! ## The same answers again -/

/-- Some row is as a write of the employee leaves it. -/
def People.Shows (people : People δ) (employee : Employee δ) (label : String) (pulledAt : ℤ) :
    Prop :=
  ∃ person ∈ people.rows, person.odooId = some employee.id ∧
    person.refresh employee label pulledAt = person

theorem shows_of_upsert {label : String} (wrote : people.upsert employee label pulledAt = .ok after) :
    after.Shows employee label pulledAt := by
  unfold People.upsert at wrote
  split at wrote
  · cases wrote
  split at wrote
  · next known =>
      obtain ⟨old, member, here⟩ := known
      cases wrote
      exact ⟨old.refresh employee label pulledAt, List.mem_map.mpr ⟨old, member, if_pos here⟩, here,
        rfl⟩
  · cases wrote
    exact ⟨_, List.mem_append_right _ List.mem_cons_self, rfl, rfl⟩

theorem upsert_of_shows {label : String} (shows_ : people.Shows employee label pulledAt) :
    people.upsert employee label pulledAt = .ok people := by
  obtain ⟨person, member, here, same⟩ := shows_
  have free : ¬ people.Taken employee.id label := by
    rintro ⟨other, inside, named, foreign⟩
    have : Std.Symm (@Person.Apart δ) := ⟨fun _ _ => Person.Apart.symm⟩
    have different : person ≠ other := fun equal => foreign (equal ▸ here)
    apply (people.distinct.forall member inside different).1
    rw [named, ← same]
    rfl
  have unchanged : (people.rows.map fun row => if row.odooId = some employee.id then
      row.refresh employee label pulledAt else row) = people.rows := by
    refine (List.map_congr_left fun row inside => ?_).trans people.rows.map_id
    split
    · next found =>
        rw [people.eq_of_odooId inside member found here]
        exact same
    · rfl
  unfold People.upsert
  rw [dif_neg free, dif_pos ⟨person, member, here⟩]
  simp only [unchanged]

theorem upsertAll_eq_ok_iff :
    people.upsertAll labelOf pulledAt employees = .ok after ↔
      Does (fun employee state next =>
        People.upsert state employee (labelOf employee.id) pulledAt = .ok next)
        employees people after := by
  induction employees generalizing people with
  | nil => simp [People.upsertAll, Does]
  | cons employee rest ih =>
      unfold People.upsertAll
      cases first : people.upsert employee (labelOf employee.id) pulledAt with
      | error _ => simp [Does, first, bind, Except.bind]
      | ok next => simp [Does, first, bind, Except.bind, ih]

theorem Person.archive_archive (person : Person δ) (inactiveIds : List ℤ) :
    (person.archive inactiveIds pulledAt).archive inactiveIds pulledAt =
      person.archive inactiveIds pulledAt := by
  unfold Person.archive
  split <;> simp_all

theorem People.archive_archive (people : People δ) (inactiveIds : List ℤ) :
    (people.archive inactiveIds pulledAt).archive inactiveIds pulledAt =
      people.archive inactiveIds pulledAt := by
  have rows : (people.rows.map (Person.archive inactiveIds pulledAt)).map
      (Person.archive inactiveIds pulledAt) =
        people.rows.map (Person.archive inactiveIds pulledAt) := by
    simp [Person.archive_archive]
  simp only [People.archive, rows]

def activeEmployee (id : ℤ) (name : String) : Option (EmployeePayload Unit) :=
  some ⟨some id, some name, some true, ()⟩

def employeeStatus (id : ℤ) (active : Bool) : Option StatusPayload := some ⟨some id, some active⟩

/-- Ana Lopez is hired. -/
def hired : Snapshot Unit :=
  { employees := some [activeEmployee 1 "Ana Lopez"]
    statuses := some [employeeStatus 1 true]
    pulledAt := 10 }

/-- Ana Lopez has left, and Ana Lee is hired. -/
def replaced : Snapshot Unit :=
  { employees := some [activeEmployee 2 "Ana Lee"]
    statuses := some [employeeStatus 1 false, employeeStatus 2 true]
    pulledAt := 20 }

theorem sync_iff_hired :
    ∃ after, sync id (∅ : People Unit) hired = .ok after ∧ Synced id ∅ hired after :=
  (sync_iff ∅ hired (by decide +kernel)).mpr fun _ _ _ _ _ member => nomatch member

/-- The label of Ana Lee is that of Ana Lopez, so the sync that hires her is aborted. -/
theorem replaced_aborts :
    ¬ ∀ people : People Unit, Occurs id people → ∀ snapshot,
      employeeSnapshotError snapshot = none →
      ∃ after, sync id people snapshot = .ok after ∧ Synced id people snapshot after := by
  intro holds
  have occurs : Occurs id (after (step id) [hired] (∅ : People Unit)) :=
    Reachable.after (fun _ _ _ => trivial) .initial
  obtain ⟨after, done, -⟩ := holds _ occurs replaced (by decide +kernel)
  have fails : (sync id (Transition.after (step id) [hired] (∅ : People Unit)) replaced).isOk =
      false := by decide +kernel
  rw [done] at fails
  cases fails

end PlantManager.Roster

import PlantManager.Skills.AutomatedSkills

/-! # Whose level a run writes

Production is stored under the identifiers of Odoo, and levels are written by the identifiers of the
table of people. So a run writes the levels that people earned exactly if every text can be read as
a number and the production under a person's own identifier calls for the same change as the
production of that person (`Skills.Automated.right_iff`).
-/

namespace PlantManager.Skills.Automated

open Mapping

/-! ## What is earned -/

/-- The totals of a day of some of the selected rows. -/
def Scope.dayOf (scope : Scope) (selected mine : List Production) (day : ℤ) : DayTotals where
  units := ((mine.filter fun row => row.day = day).map Production.units).sum
  hours := ((mine.filter fun row => row.day = day).map Production.hours).sum
  goal := ((mine.filter fun row => row.day = day).map fun row =>
    (scope.goals row.wcName).getD 0 / operatorCount selected row).sum

/-- The days of enough hours that have a goal. -/
def Scope.qualifying (scope : Scope) (selected mine : List Production) : List ℤ :=
  (mine.map Production.day).dedup.filter fun day =>
    minHours ≤ (scope.dayOf selected mine day).hours ∧ 0 < (scope.dayOf selected mine day).goal

def Scope.attainment (scope : Scope) (totals : DayTotals) : ℚ :=
  totals.units / totals.hours * scope.fullDayHours / totals.goal * 100

/-- The level that some rows earn: the bucket of the mean over at least two qualifying days. -/
def Scope.earned (scope : Scope) (selected mine : List Production) : Option ℤ :=
  let days := scope.qualifying selected mine
  if minDays ≤ days.length then
    some (bucketFor ((days.map fun day => scope.attainment (scope.dayOf selected mine day)).sum /
      days.length) scope.settings)
  else none

/-- The level that the production under an identifier of Odoo earns. -/
def Scope.own (scope : Scope) (rows : List Production) (odooId : ℕ) : Option ℤ :=
  scope.earned (scope.selected rows)
    ((scope.selected rows).filter fun row => row.key = .id odooId)

/-- The level that the production earns whose text is read as a number. -/
def Scope.read (scope : Scope) (cast : String → Option ℤ) (rows : List Production) (id : ℤ) :
    Option ℤ :=
  scope.earned (scope.selected rows)
    ((scope.selected rows).filter fun row => cast row.key.text = some id)

/-- The level that a person with a level is due. -/
def due (held : ℤ) (earned : Option ℤ) : Option ℤ := earned.filter fun level => held ≠ level

/-- Runs write the levels of people who earned them, all of these levels, and no others. -/
structure Right (scope : Scope) (cast : String → Option ℤ) (lower : String → String)
    (people : People) (levels : ℤ → ℤ) (rows : List Production) : Prop where
  reads : ∀ write, runGroup scope cast lower people levels write rows ≠ .castError
  only : ∀ write run, (runGroup scope cast lower people levels write rows).run? = some run →
    ∀ call ∈ run.calls, ∃ person ∈ people.people, person.id = call.personId ∧
      ∃ odooId ∈ person.odooId, scope.own rows odooId = some call.level
  all : ∀ write run, runGroup scope cast lower people levels write rows = .finished run →
    ∀ person ∈ people.people, person.active = true → person.excluded = false →
      ∀ odooId ∈ person.odooId, ∀ level, scope.own rows odooId = some level →
        level ≠ levels person.id →
          run.levels person.id = level ∨
            ∃ name error, write ⟨person.id, level⟩ = .syncError error ∧ (name, error) ∈ run.failures
  others : ∀ write run, (runGroup scope cast lower people levels write rows).run? = some run →
    ∀ id, run.levels id ≠ levels id → ∃ person ∈ people.people, person.id = id ∧
      ∃ odooId ∈ person.odooId, scope.own rows odooId = some (run.levels id)

/-- Every text can be read as a number, and for everybody whose level is managed the production
under their own identifier calls for the same change as their production. -/
structure Matched (scope : Scope) (cast : String → Option ℤ) (people : People) (levels : ℤ → ℤ)
    (rows : List Production) : Prop where
  reads : ∀ row ∈ scope.selected rows, (cast row.key.text).isSome
  same : ∀ person ∈ people.people, person.active = true → person.excluded = false →
    due (levels person.id) (scope.read cast rows person.id) =
      due (levels person.id) (person.odooId.bind (scope.own rows))

/-! ## Evaluating -/

theorem mapM_map_eq {α β γ : Type*} (read : α → Option β) (build : α → β → γ) (fallback : β)
    (items : List α) :
    (items.mapM fun item => (read item).map (build item)) =
      if ∀ item ∈ items, (read item).isSome then
        some (items.map fun item => build item ((read item).getD fallback))
      else none := by
  induction items with
  | nil => simp
  | cons item rest ih =>
      rw [List.mapM_cons, ih]
      cases found : read item with
      | none => simp [found]
      | some value =>
          by_cases later : ∀ other ∈ rest, (read other).isSome
          · have all : ∀ other ∈ item :: rest, (read other).isSome :=
              List.forall_mem_cons.mpr ⟨found ▸ rfl, later⟩
            rw [if_pos later, if_pos all, List.map_cons, found]
            rfl
          · have some_ : ¬ ∀ other ∈ item :: rest, (read other).isSome :=
              fun all => later (List.forall_mem_cons.mp all).2
            rw [if_neg later, if_neg some_]
            rfl

variable {scope : Scope}

/-- The record of a row. -/
def record (cast : String → Option ℤ) (selected : List Production) (row : Production) :
    DailyRecord :=
  ⟨row.day, (cast row.key.text).getD 0, row.name, row.wcName, row.units, row.hours,
    operatorCount selected row⟩

theorem recordsForGroup_eq (scope : Scope) (cast : String → Option ℤ) (rows : List Production) :
    scope.recordsForGroup cast rows =
      if ∀ row ∈ scope.selected rows, (cast row.key.text).isSome then
        some ((scope.selected rows).map (record cast (scope.selected rows)))
      else none :=
  mapM_map_eq _ _ 0 _

theorem operatorCount_pos {selected : List Production} {row : Production}
    (member : row ∈ selected) : 0 < operatorCount selected row :=
  List.countP_pos_iff.mpr ⟨row, member, by simp⟩

/-- Every record of a run counts. -/
theorem filter_counts (scope : Scope) (cast : String → Option ℤ) (rows : List Production) :
    ((scope.selected rows).map (record cast (scope.selected rows))).filter scope.counts =
      (scope.selected rows).map (record cast (scope.selected rows)) := by
  refine List.filter_eq_self.mpr fun counted member => ?_
  obtain ⟨row, known, rfl⟩ := List.mem_map.mp member
  have held := of_decide_eq_true (List.mem_filter.mp known).2
  exact decide_eq_true ⟨operatorCount_pos known, held.2.2.1⟩

theorem foldl_add (scope : Scope) (records : List DailyRecord) (totals : DayTotals) :
    records.foldl (fun totals record => scope.add record totals) totals =
      ⟨totals.units + (records.map DailyRecord.units).sum,
        totals.hours + (records.map DailyRecord.hours).sum,
        totals.goal + (records.map fun record =>
          (scope.goals record.wcName).getD 0 / record.operatorCount).sum⟩ := by
  induction records generalizing totals with
  | nil => simp
  | cons record rest ih =>
      rw [List.foldl_cons, ih]
      simp only [Scope.add, List.map_cons, List.sum_cons, add_assoc]

theorem score_eq (scope : Scope) (totals : DayTotals) :
    scope.score totals =
      if minHours ≤ totals.hours ∧ 0 < totals.goal then some (scope.attainment totals) else none := by
  unfold Scope.score
  by_cases qualifies : minHours ≤ totals.hours ∧ 0 < totals.goal
  · have positive : 0 < totals.hours := lt_of_lt_of_le (by decide +kernel) qualifies.1
    rw [if_pos qualifies, if_neg]
    · rfl
    · rintro (short | none_ | goalless)
      · exact absurd qualifies.1 short.not_ge
      · exact absurd positive none_.not_gt
      · exact absurd qualifies.2 goalless.not_gt
  · rw [if_neg qualifies, if_pos]
    by_contra others
    exact qualifies ⟨not_lt.mp fun short => others (.inl short),
      not_le.mp fun goalless => others (.inr (.inr goalless))⟩

/-- The rows that count for somebody. -/
def mine (cast : String → Option ℤ) (selected : List Production) (id : ℤ) : List Production :=
  selected.filter fun row => (cast row.key.text).getD 0 = id

variable {cast : String → Option ℤ} {rows : List Production}

theorem getD_get_byPersonDay (scope : Scope) (cast : String → Option ℤ)
    (selected : List Production) (id day : ℤ) :
    ((scope.byPersonDay (selected.map (record cast selected))).get (id, day)).getD .zero =
      scope.dayOf selected (mine cast selected id) day := by
  have filtered : ((selected.map (record cast selected)).filter fun record =>
      (record.personId, record.day) = (id, day)) =
        ((mine cast selected id).filter fun row => row.day = day).map (record cast selected) := by
    rw [List.filter_map, mine, List.filter_filter]
    congr 1
    refine List.filter_congr fun row _ => ?_
    rw [Bool.eq_iff_iff, Bool.and_eq_true, Function.comp_apply, decide_eq_true_iff,
      decide_eq_true_iff, decide_eq_true_iff, Prod.mk.injEq, and_comm]
    rfl
  unfold Scope.byPersonDay
  rw [Dictionary.getD_foldl_alter (fun record : DailyRecord => (record.personId, record.day))
    scope.add, filtered, foldl_add]
  simp only [Dictionary.get_empty, Option.getD_none, DayTotals.zero, zero_add, List.map_map]
  rfl

theorem scores_eq (scope : Scope) (totals : Dictionary (ℤ × ℤ) DayTotals) (id : ℤ) :
    scope.scores totals id =
      ((totals.entries.filter fun entry => entry.1.1 = id).map fun entry => entry.1.2).filterMap
        fun day => scope.score ((totals.get (id, day)).getD .zero) := by
  rw [List.filterMap_map, List.filterMap_filter]
  refine List.filterMap_congr fun entry member => ?_
  by_cases his : entry.1.1 = id
  · have stored : totals.get (id, entry.1.2) = some entry.2 := by
      rw [← his]
      exact Dictionary.get_eq_some_iff.mpr member
    simp [his, stored]
  · simp [his]

theorem days_perm (scope : Scope) (cast : String → Option ℤ) (selected : List Production)
    (id : ℤ) :
    (((scope.byPersonDay (selected.map (record cast selected))).entries.filter
        fun entry => entry.1.1 = id).map fun entry => entry.1.2).Perm
      ((mine cast selected id).map Production.day).dedup := by
  have distinct := (scope.byPersonDay (selected.map (record cast selected))).distinct
  refine (List.perm_ext_iff_of_nodup ?_ (List.nodup_dedup _)).mpr fun day => ?_
  · refine List.Nodup.of_map (fun day => (id, day)) ?_
    rw [List.map_map]
    have same : ((scope.byPersonDay (selected.map (record cast selected))).entries.filter
        fun entry => entry.1.1 = id).map ((fun day => (id, day)) ∘ fun entry => entry.1.2) =
          ((scope.byPersonDay (selected.map (record cast selected))).entries.filter
            fun entry => entry.1.1 = id).map Prod.fst := by
      refine List.map_congr_left fun entry member => ?_
      have his : entry.1.1 = id := of_decide_eq_true (List.mem_filter.mp member).2
      exact Prod.ext his.symm rfl
    rw [same]
    exact distinct.sublist (List.filter_sublist.map _)
  · have keys : (id, day) ∈ (scope.byPersonDay (selected.map (record cast selected))).keys ↔
        ∃ row ∈ selected, (cast row.key.text).getD 0 = id ∧ row.day = day := by
      unfold Scope.byPersonDay
      rw [Dictionary.mem_keys_foldl_alter]
      simp [record]
    have entries : day ∈ ((scope.byPersonDay (selected.map (record cast selected))).entries.filter
        fun entry => entry.1.1 = id).map (fun entry => entry.1.2) ↔
          (id, day) ∈ (scope.byPersonDay (selected.map (record cast selected))).keys := by
      simp only [List.mem_map, List.mem_filter, decide_eq_true_iff, Dictionary.keys]
      constructor
      · rintro ⟨entry, ⟨member, rfl⟩, rfl⟩
        exact ⟨entry, member, rfl⟩
      · rintro ⟨entry, member, same⟩
        exact ⟨entry, ⟨member, congrArg Prod.fst same⟩, congrArg Prod.snd same⟩
    rw [entries, keys, List.mem_dedup, List.mem_map]
    simp only [mine, List.mem_filter, decide_eq_true_iff, and_assoc]

theorem map_filter_eq_filterMap {α β : Type*} (test : α → Bool) (value : α → β) (items : List α) :
    (items.filter test).map value =
      items.filterMap fun item => if test item then some (value item) else none := by
  induction items with
  | nil => rfl
  | cons item rest ih =>
      cases holds : test item with
      | true => rw [List.filter_cons_of_pos holds, List.map_cons, ih,
          List.filterMap_cons_some (by rw [holds]; rfl)]
      | false => rw [List.filter_cons_of_neg (by simp [holds]), ih,
          List.filterMap_cons_none (by rw [holds]; rfl)]

/-- The level of the scores of somebody is what their rows earn. -/
theorem levelOf_scores (scope : Scope) (cast : String → Option ℤ) (selected : List Production)
    (id : ℤ) :
    scope.levelOf (scope.scores (scope.byPersonDay (selected.map (record cast selected))) id) =
      scope.earned selected (mine cast selected id) := by
  have scores : (scope.scores (scope.byPersonDay (selected.map (record cast selected))) id).Perm
      ((scope.qualifying selected (mine cast selected id)).map fun day =>
        scope.attainment (scope.dayOf selected (mine cast selected id) day)) := by
    rw [scores_eq]
    refine ((days_perm scope cast selected id).filterMap _).trans (List.Perm.of_eq ?_)
    unfold Scope.qualifying
    rw [map_filter_eq_filterMap]
    refine List.filterMap_congr fun day _ => ?_
    rw [getD_get_byPersonDay, score_eq]
    simp
  unfold Scope.levelOf Scope.earned
  rw [scores.length_eq, scores.sum_eq, List.length_map]
  by_cases enough : minDays ≤ (scope.qualifying selected (mine cast selected id)).length
  · rw [if_neg enough.not_gt]
    exact (if_pos enough).symm
  · rw [if_pos (not_le.mp enough)]
    exact (if_neg enough).symm

theorem names_nodup (records : List DailyRecord) : (names records).keys.Nodup :=
  (names records).nodup_keys

/-- Everybody is evaluated once. -/
theorem evaluate_nodup (scope : Scope) (lower : String → String) (records : List DailyRecord) :
    ((scope.evaluate lower records).map Evaluation.personId).Nodup := by
  unfold Scope.evaluate
  dsimp only
  rw [List.map_map]
  exact ((Ranking.sortBy_perm (fun entry : ℤ × String => lower entry.2) _).map Prod.fst).nodup_iff.mpr
    (names_nodup _)

variable {lower : String → String}

/-- When the texts can be read, somebody who has rows is evaluated by what the rows earn. -/
theorem mem_evaluate_iff {id : ℤ} {level : Option ℤ}
    (reads : ∀ row ∈ scope.selected rows, (cast row.key.text).isSome) :
    (∃ evaluation ∈ scope.evaluate lower
        ((scope.selected rows).map (record cast (scope.selected rows))),
      evaluation.personId = id ∧ evaluation.level = level) ↔
    (∃ row ∈ scope.selected rows, cast row.key.text = some id) ∧ scope.read cast rows id = level := by
  have counted := filter_counts scope cast rows
  have named : id ∈ (names ((scope.selected rows).map
      (record cast (scope.selected rows)))).keys ↔
        ∃ row ∈ scope.selected rows, cast row.key.text = some id := by
    unfold names
    rw [Dictionary.mem_keys_foldl_alter]
    simp only [Dictionary.keys_empty, List.not_mem_nil, false_or, List.mem_map,
      exists_exists_and_eq_and]
    refine exists_congr fun row => and_congr_right fun member => ?_
    obtain ⟨value, found⟩ := Option.isSome_iff_exists.mp (reads row member)
    simp [record, found]
  have read : scope.levelOf (scope.scores (scope.byPersonDay ((scope.selected rows).map
      (record cast (scope.selected rows)))) id) = scope.read cast rows id := by
    rw [levelOf_scores]
    congr 1
    refine List.filter_congr fun row member => ?_
    obtain ⟨value, found⟩ := Option.isSome_iff_exists.mp (reads row member)
    simp [found]
  rw [← named, ← read, Dictionary.mem_keys_iff]
  unfold Scope.evaluate
  rw [counted]
  simp only [List.mem_map, Ranking.mem_sortBy]
  constructor
  · rintro ⟨_, ⟨entry, member, rfl⟩, rfl, same⟩
    exact ⟨⟨entry.2, Dictionary.get_eq_some_iff.mpr member⟩, same⟩
  · rintro ⟨⟨name, found⟩, same⟩
    exact ⟨_, ⟨(id, name), Dictionary.get_eq_some_iff.mp found, rfl⟩, rfl, same⟩

/-- Nobody earns a level without rows. -/
theorem earned_nil (scope : Scope) (selected : List Production) : scope.earned selected [] = none :=
  rfl

/-- Some level is read for exactly the people who are evaluated with it. -/
theorem mem_evaluate_some {id level : ℤ}
    (reads : ∀ row ∈ scope.selected rows, (cast row.key.text).isSome) :
    (∃ evaluation ∈ scope.evaluate lower
        ((scope.selected rows).map (record cast (scope.selected rows))),
      evaluation.personId = id ∧ evaluation.level = some level) ↔
    scope.read cast rows id = some level := by
  rw [mem_evaluate_iff reads, and_iff_right_iff_imp]
  intro earns
  by_contra none_
  have nobody : (scope.selected rows).filter (fun row => cast row.key.text = some id) = [] :=
    List.filter_eq_nil_iff.mpr fun row member same =>
      none_ ⟨row, member, of_decide_eq_true same⟩
  unfold Scope.read at earns
  rw [nobody, earned_nil] at earns
  cases earns

/-! ## Writing -/

/-- What a run that wrote some evaluations did, to its end or not. -/
structure Wrote (current : ℤ → Option ℤ) (write : Call → Write) (evaluations : List Evaluation)
    (before after : Run) (ended : Bool) : Prop where
  calls : ∀ call ∈ after.calls, call ∈ before.calls ∨ ∃ evaluation ∈ evaluations,
    evaluation.personId = call.personId ∧ evaluation.level = some call.level ∧
      ∃ held ∈ current call.personId, held ≠ call.level
  levels : ∀ id, after.levels id = before.levels id ∨ ∃ evaluation ∈ evaluations,
    evaluation.personId = id ∧ evaluation.level = some (after.levels id) ∧
      ∃ held ∈ current id, held ≠ after.levels id
  failures : ∀ failure ∈ before.failures, failure ∈ after.failures
  written : ended = true → ∀ evaluation ∈ evaluations, ∀ level ∈ evaluation.level,
    ∀ held ∈ current evaluation.personId, held ≠ level →
      after.levels evaluation.personId = level ∨ ∃ error,
        write ⟨evaluation.personId, level⟩ = .syncError error ∧
          (evaluation.name, error) ∈ after.failures

variable {current : ℤ → Option ℤ} {write : Call → Write} {evaluation : Evaluation}
  {rest : List Evaluation} {before first after : Run} {ended : Bool}

theorem Wrote.nil (run : Run) (ended : Bool) : Wrote current write [] run run ended where
  calls := fun _ member => .inl member
  levels := fun _ => .inl rfl
  failures := fun _ member => member
  written := fun _ _ member => nomatch member

/-- An evaluation whose level is not written. -/
theorem Wrote.skip (wrote : Wrote current write rest before after ended)
    (same : ∀ level ∈ evaluation.level, ∀ held ∈ current evaluation.personId, held = level) :
    Wrote current write (evaluation :: rest) before after ended where
  calls := fun call member => (wrote.calls call member).imp_right fun ⟨other, later, found⟩ =>
    ⟨other, List.mem_cons_of_mem _ later, found⟩
  levels := fun id => (wrote.levels id).imp_right fun ⟨other, later, found⟩ =>
    ⟨other, List.mem_cons_of_mem _ later, found⟩
  failures := wrote.failures
  written := by
    rintro ended other (_ | ⟨_, later⟩) level earns held known differs
    · exact absurd (same level earns held known) differs
    · exact wrote.written ended other later level earns held known differs

/-- An evaluation whose level is written, and not by a later one. -/
theorem Wrote.cons {level held : ℤ} (wrote : Wrote current write rest first after ended)
    (earns : evaluation.level = some level) (known : current evaluation.personId = some held)
    (differs : held ≠ level) (once : ∀ other ∈ rest, other.personId ≠ evaluation.personId)
    (calls : first.calls = before.calls ++ [⟨evaluation.personId, level⟩])
    (levels : first.levels = before.levels ∨
      first.levels = Function.update before.levels evaluation.personId level)
    (failures : ∀ failure ∈ before.failures, failure ∈ first.failures)
    (written : ended = true → first.levels evaluation.personId = level ∨ ∃ error,
      write ⟨evaluation.personId, level⟩ = .syncError error ∧
        (evaluation.name, error) ∈ first.failures) :
    Wrote current write (evaluation :: rest) before after ended where
  calls := by
    intro call member
    rcases wrote.calls call member with early | ⟨other, later, found⟩
    · rcases List.mem_append.mp (calls ▸ early) with early | now
      · exact .inl early
      · obtain rfl := List.mem_singleton.mp now
        exact .inr ⟨evaluation, List.mem_cons_self, rfl, earns, held, known, differs⟩
    · exact .inr ⟨other, List.mem_cons_of_mem _ later, found⟩
  levels := by
    intro id
    rcases wrote.levels id with same | ⟨other, later, found⟩
    · rcases levels with kept | set
      · exact .inl (same.trans (congrFun kept id))
      · by_cases here : id = evaluation.personId
        · subst here
          have now : after.levels evaluation.personId = level := by
            rw [same, set, Function.update_self]
          exact .inr ⟨evaluation, List.mem_cons_self, rfl, now ▸ earns, held, known, now ▸ differs⟩
        · rw [set, Function.update_of_ne here] at same
          exact .inl same
    · exact .inr ⟨other, List.mem_cons_of_mem _ later, found⟩
  failures := fun failure member => wrote.failures failure (failures failure member)
  written := by
    rintro ended other (_ | ⟨_, later⟩) level' earns' held' known' differs'
    · obtain rfl := Option.some.inj (earns.symm.trans earns')
      rcases written ended with set | ⟨error, failed, noted⟩
      · rcases wrote.levels evaluation.personId with same | ⟨another, later, his, -⟩
        · exact .inl (same.trans set)
        · exact absurd his (once another later)
      · exact .inr ⟨error, failed, wrote.failures _ noted⟩
    · exact wrote.written ended other later level' earns' held' known' differs'

/-- A run that ends early. -/
theorem Wrote.early (wrote : Wrote current write [evaluation] before after false) :
    Wrote current write (evaluation :: rest) before after false where
  calls := fun call member => (wrote.calls call member).imp_right fun ⟨other, first, found⟩ =>
    ⟨other, List.mem_singleton.mp first ▸ List.mem_cons_self, found⟩
  levels := fun id => (wrote.levels id).imp_right fun ⟨other, first, found⟩ =>
    ⟨other, List.mem_singleton.mp first ▸ List.mem_cons_self, found⟩
  failures := wrote.failures
  written := nofun

/-- What writing the levels of distinct people does. -/
theorem writeLevels_wrote (current : ℤ → Option ℤ) (write : Call → Write) :
    ∀ (evaluations : List Evaluation) (run : Run),
      (evaluations.map Evaluation.personId).Nodup → ∃ after ended,
        writeLevels current write evaluations run =
          (if ended then .finished after else .raised after) ∧
            Wrote current write evaluations run after ended ∧
              (ended = false → ∃ call mirrored, write call = .raised mirrored)
  | [], run, _ => ⟨run, true, rfl, Wrote.nil run true, nofun⟩
  | evaluation :: rest, run, nodup => by
      obtain ⟨absent, nodup⟩ := List.nodup_cons.mp nodup
      have once : ∀ other ∈ rest, other.personId ≠ evaluation.personId :=
        fun other later same => absent (List.mem_map.mpr ⟨other, later, same⟩)
      rw [writeLevels]
      split
      · rename_i level held earns known
        split
        · rename_i same
          obtain ⟨after, ended, wrote, facts, raised⟩ :=
            writeLevels_wrote current write rest run nodup
          refine ⟨after, ended, wrote, facts.skip fun level' earns' held' known' => ?_, raised⟩
          obtain rfl := Option.some.inj (earns.symm.trans earns')
          obtain rfl := Option.some.inj (known.symm.trans known')
          exact same
        · rename_i differs
          dsimp only
          split
          · obtain ⟨after, ended, wrote, facts, raised⟩ :=
              writeLevels_wrote current write rest _ nodup
            exact ⟨after, ended, wrote, facts.cons earns known differs once rfl (.inr rfl)
              (fun _ member => member) fun _ => .inl (Function.update_self _ _ _), raised⟩
          · rename_i error failed
            obtain ⟨after, ended, wrote, facts, raised⟩ :=
              writeLevels_wrote current write rest _ nodup
            exact ⟨after, ended, wrote, facts.cons earns known differs once rfl (.inl rfl)
              (fun _ member => List.mem_append_left _ member)
              fun _ => .inr ⟨error, failed, List.mem_append_right _ List.mem_cons_self⟩, raised⟩
          · rename_i mirrored failed
            have ended : Wrote current write [evaluation] run
                { run with
                  calls := run.calls ++ [⟨evaluation.personId, level⟩]
                  levels := if mirrored then
                    Function.update run.levels evaluation.personId level
                  else run.levels } false := by
              refine (Wrote.nil _ false).cons earns known differs (List.forall_mem_nil _) rfl ?_
                (fun _ member => member) nofun
              cases mirrored with
              | true => exact .inr rfl
              | false => exact .inl rfl
            exact ⟨_, false, rfl, ended.early, fun _ => ⟨_, mirrored, failed⟩⟩
      · rename_i other
        obtain ⟨after, ended, wrote, facts, raised⟩ :=
          writeLevels_wrote current write rest run nodup
        exact ⟨after, ended, wrote, facts.skip fun level earns held known =>
          absurd known (other level held earns), raised⟩

/-! ## Whose level is written -/

theorem due_eq_some {held level : ℤ} {earned : Option ℤ} :
    due held earned = some level ↔ earned = some level ∧ held ≠ level := by
  unfold due
  rw [Option.filter_eq_some_iff, decide_eq_true_iff]

variable {people : People} {levels : ℤ → ℤ}

/-- Whose level is managed. -/
theorem currentLevels_eq_some {id held : ℤ} :
    people.currentLevels levels id = some held ↔
      (∃ person ∈ people.people, person.id = id ∧ person.active = true ∧ person.excluded = false) ∧
        levels id = held := by
  unfold People.currentLevels
  split
  · rename_i managed
    rw [Option.some.injEq]
    exact (and_iff_right managed).symm
  · rename_i other
    exact ⟨nofun, fun managed => absurd managed.1 other⟩

theorem People.unique (people : People) {first second : Person} (member : first ∈ people.people)
    (member' : second ∈ people.people) (same : first.id = second.id) : first = second :=
  List.inj_on_of_nodup_map people.ids member member' same

/-- What a run does if every text can be read. -/
theorem runGroup_wrote (reads : ∀ row ∈ scope.selected rows, (cast row.key.text).isSome)
    (lower : String → String) (people : People) (levels : ℤ → ℤ) (write : Call → Write) :
    ∃ after ended, runGroup scope cast lower people levels write rows =
      (if ended then .finished after else .raised after) ∧
        Wrote (people.currentLevels levels) write (scope.evaluate lower
          ((scope.selected rows).map (record cast (scope.selected rows))))
          ⟨[], levels, []⟩ after ended ∧
            (ended = false → ∃ call mirrored, write call = .raised mirrored) := by
  unfold runGroup
  rw [recordsForGroup_eq, if_pos reads]
  exact writeLevels_wrote _ write _ _ (evaluate_nodup scope lower _)

theorem Right.matched (right : Right scope cast lower people levels rows) :
    Matched scope cast people levels rows := by
  have reads : ∀ row ∈ scope.selected rows, (cast row.key.text).isSome := by
    by_contra unread
    refine right.reads (fun _ => .done) ?_
    unfold runGroup
    rw [recordsForGroup_eq, if_neg unread]
  refine ⟨reads, fun person member active included => ?_⟩
  -- Where every level can be written, the run writes what is due.
  obtain ⟨after, ended, ran, wrote, raised⟩ :=
    runGroup_wrote reads lower people levels fun _ => .done
  obtain rfl : ended = true := by
    by_contra unfinished
    obtain ⟨_, _, ⟨⟩⟩ := raised (eq_false_of_ne_true unfinished)
  have managed : people.currentLevels levels person.id = some (levels person.id) :=
    currentLevels_eq_some.mpr ⟨⟨person, member, rfl, active, included⟩, rfl⟩
  have finished : runGroup scope cast lower people levels (fun _ => .done) rows =
      .finished after := ran
  refine Option.ext fun level => ?_
  constructor
  · intro reads'
    obtain ⟨read, differs⟩ := due_eq_some.mp reads'
    obtain ⟨evaluation, evaluated, his, earns⟩ := (mem_evaluate_some reads).mpr read
    have set : after.levels person.id = level := by
      rcases wrote.written rfl evaluation evaluated level earns (levels person.id)
        (his ▸ managed) differs with set | ⟨_, ⟨⟩, _⟩
      exact his ▸ set
    obtain ⟨other, member', same, odooId, known, earns⟩ := right.others _ after
      (by rw [finished]; rfl) person.id (by rw [set]; exact Ne.symm differs)
    obtain rfl := people.unique member' member same
    exact due_eq_some.mpr ⟨Option.bind_eq_some_iff.mpr ⟨odooId, known, set ▸ earns⟩, differs⟩
  · intro earned
    obtain ⟨earned, differs⟩ := due_eq_some.mp earned
    obtain ⟨odooId, known, earns⟩ := Option.bind_eq_some_iff.mp earned
    have set : after.levels person.id = level := by
      rcases right.all _ after finished person member active included odooId known level earns
        (Ne.symm differs) with set | ⟨_, _, ⟨⟩, _⟩
      exact set
    rcases wrote.levels person.id with kept | ⟨evaluation, evaluated, his, read, -⟩
    · exact absurd (kept.symm.trans set) differs
    · exact due_eq_some.mpr
        ⟨(mem_evaluate_some reads).mp ⟨evaluation, evaluated, his, set ▸ read⟩, differs⟩

/-- Whoever's level is managed earned what the run writes. -/
theorem Matched.earned (matched : Matched scope cast people levels rows) {evaluation : Evaluation}
    {held level : ℤ} (evaluated : evaluation ∈ scope.evaluate lower
      ((scope.selected rows).map (record cast (scope.selected rows))))
    (earns : evaluation.level = some level)
    (known : held ∈ people.currentLevels levels evaluation.personId) (differs : held ≠ level) :
    ∃ person ∈ people.people, person.id = evaluation.personId ∧
      ∃ odooId ∈ person.odooId, scope.own rows odooId = some level := by
  obtain ⟨⟨person, member, same, active, included⟩, rfl⟩ := currentLevels_eq_some.mp known
  have read : scope.read cast rows person.id = some level :=
    (mem_evaluate_some matched.reads).mp ⟨evaluation, evaluated, same.symm, earns⟩
  have owed := matched.same person member active included
  rw [read, due_eq_some.mpr ⟨rfl, same ▸ differs⟩] at owed
  obtain ⟨odooId, known, own⟩ := Option.bind_eq_some_iff.mp (due_eq_some.mp owed.symm).1
  exact ⟨person, member, same, odooId, known, own⟩

theorem Matched.right (matched : Matched scope cast people levels rows) :
    Right scope cast lower people levels rows where
  reads := by
    intro write
    obtain ⟨after, ended, ran, -⟩ := runGroup_wrote matched.reads lower people levels write
    rw [ran]
    cases ended <;> nofun
  only := by
    intro write run ran call member
    obtain ⟨after, ended, ran', wrote, -⟩ :=
      runGroup_wrote matched.reads lower people levels write
    obtain rfl : run = after := by
      rw [ran'] at ran
      cases ended <;> exact (Option.some.inj ran).symm
    rcases wrote.calls call member with early | ⟨evaluation, evaluated, same, earns, held, known,
      differs⟩
    · cases early
    · rw [← same] at known ⊢
      exact matched.earned evaluated earns known differs
  all := by
    intro write run ran person member active included odooId known level own differs
    obtain ⟨after, ended, ran', wrote, -⟩ :=
      runGroup_wrote matched.reads lower people levels write
    rw [ran'] at ran
    cases ended with
    | false => cases ran
    | true =>
        obtain rfl := Outcome.finished.inj ran
        have owed := matched.same person member active included
        rw [Option.mem_def.mp known, Option.bind_some, own, due_eq_some.mpr ⟨rfl, differs.symm⟩]
          at owed
        obtain ⟨evaluation, evaluated, same, earns⟩ :=
          (mem_evaluate_some matched.reads).mpr (due_eq_some.mp owed).1
        have managed : people.currentLevels levels evaluation.personId = some (levels person.id) :=
          currentLevels_eq_some.mpr ⟨⟨person, member, same.symm, active, included⟩, same ▸ rfl⟩
        rcases wrote.written rfl evaluation evaluated level earns _ managed differs.symm with
          set | ⟨error, failed, noted⟩
        · exact .inl (same ▸ set)
        · exact .inr ⟨evaluation.name, error, same ▸ failed, noted⟩
  others := by
    intro write run ran id differs
    obtain ⟨after, ended, ran', wrote, -⟩ :=
      runGroup_wrote matched.reads lower people levels write
    obtain rfl : run = after := by
      rw [ran'] at ran
      cases ended <;> exact (Option.some.inj ran).symm
    rcases wrote.levels id with kept | ⟨evaluation, evaluated, rfl, earns, held, known, differs⟩
    · exact absurd kept differs
    · exact matched.earned evaluated earns known differs

private def repair : Scope where
  goals := fun wcName => if wcName = "Repair 1" then some 100 else none
  start := 0
  stop := 29
  absent := fun _ _ => false
  settings := ⟨90, 80, 70⟩
  fullDayHours := 8

/-- The second has the identifier that the first has in Odoo. -/
private def twoPeople : People where
  people := [⟨1, some 2, true, false⟩, ⟨2, some 3, true, false⟩]
  ids := by decide

private def dayOfWork (day : ℤ) : Production := ⟨day, .id 2, "Ana", "Repair 1", 100, 8, 1⟩

/-- The number that decimal digits are. -/
private def readDigits (text : String) : Option ℤ :=
  if text ≠ "" ∧ text.toList.all Char.isDigit then
    some ((Nat.ofDigitChars 10 text.toList 0 : ℕ) : ℤ)
  else none

private theorem readDigits_toString (odooId : ℕ) : readDigits (toString odooId) = some (odooId : ℤ) := by
  have digits : (toString odooId).toList = Nat.toDigits 10 odooId := Nat.toList_repr
  unfold readDigits
  rw [if_pos, digits, Nat.ofDigitChars_ten_toDigits]
  rw [digits, List.all_eq_true]
  exact ⟨Nat.repr_ne_empty, fun _ member =>
    Nat.isDigit_of_mem_toDigits (by decide) (by decide) member⟩

end PlantManager.Skills.Automated

import Mathlib

/-! # Mappings kept in the order of their keys

A mapping is a list of entries in strictly increasing order of their keys, so that
mappings with the same lookups are equal (`Mapping.SortedMap.ext_get`).
-/

namespace PlantManager.Mapping

/-- Entries with increasing keys. -/
structure SortedMap (κ ν : Type*) [LinearOrder κ] where
  entries : List (κ × ν)
  sorted : entries.Pairwise fun first second => first.1 < second.1

namespace SortedMap

variable {κ ν : Type*} [LinearOrder κ]

instance [DecidableEq ν] : DecidableEq (SortedMap κ ν) := fun first second =>
  decidable_of_iff (first.entries = second.entries) (by cases first; cases second; simp)

instance : EmptyCollection (SortedMap κ ν) := ⟨⟨[], List.Pairwise.nil⟩⟩

def get (values : SortedMap κ ν) (key : κ) : Option ν := values.entries.lookup key

def keys (values : SortedMap κ ν) : List κ := values.entries.map Prod.fst

/-- Store a value, replacing the one stored before. -/
def setEntry (key : κ) (value : ν) : List (κ × ν) → List (κ × ν)
  | [] => [(key, value)]
  | entry :: rest =>
      if key < entry.1 then (key, value) :: entry :: rest
      else if key = entry.1 then (key, value) :: rest
      else entry :: setEntry key value rest

theorem mem_setEntry {key : κ} {value : ν} {entries : List (κ × ν)} {entry : κ × ν}
    (member : entry ∈ setEntry key value entries) : entry.1 = key ∨ entry ∈ entries := by
  induction entries with
  | nil =>
      rw [setEntry, List.mem_singleton] at member
      exact Or.inl (congrArg Prod.fst member)
  | cons head rest ih =>
      rw [setEntry] at member
      split at member
      · rcases List.mem_cons.mp member with rfl | old
        · exact Or.inl rfl
        · exact Or.inr old
      · split at member
        · rcases List.mem_cons.mp member with rfl | old
          · exact Or.inl rfl
          · exact Or.inr (List.mem_cons_of_mem _ old)
        · rcases List.mem_cons.mp member with rfl | later
          · exact Or.inr List.mem_cons_self
          · exact (ih later).imp_right (List.mem_cons_of_mem _)

theorem sorted_setEntry {key : κ} {value : ν} {entries : List (κ × ν)}
    (sorted : entries.Pairwise fun first second => first.1 < second.1) :
    (setEntry key value entries).Pairwise fun first second => first.1 < second.1 := by
  induction entries with
  | nil => exact List.pairwise_singleton _ _
  | cons head rest ih =>
      obtain ⟨above, later⟩ := List.pairwise_cons.mp sorted
      rw [setEntry]
      split
      · rename_i smaller
        refine List.pairwise_cons.mpr ⟨fun entry member => ?_, sorted⟩
        rcases List.mem_cons.mp member with rfl | old
        · exact smaller
        · exact smaller.trans (above entry old)
      · split
        · rename_i same
          exact List.pairwise_cons.mpr ⟨fun entry member => same ▸ above entry member, later⟩
        · rename_i notSmaller different
          refine List.pairwise_cons.mpr ⟨fun entry member => ?_, ih later⟩
          rcases mem_setEntry member with same | old
          · exact same ▸ lt_of_le_of_ne (not_lt.mp notSmaller) (Ne.symm different)
          · exact above entry old

def set (values : SortedMap κ ν) (key : κ) (value : ν) : SortedMap κ ν :=
  ⟨setEntry key value values.entries, sorted_setEntry values.sorted⟩

def erase (values : SortedMap κ ν) (key : κ) : SortedMap κ ν :=
  ⟨values.entries.filter fun entry => entry.1 ≠ key, values.sorted.filter _⟩

/-- Change every value. -/
def mapValues {ω : Type*} (values : SortedMap κ ν) (change : κ → ν → ω) : SortedMap κ ω :=
  ⟨values.entries.map fun entry => (entry.1, change entry.1 entry.2),
    List.pairwise_map.mpr values.sorted⟩

/-- Store all entries, the later ones replacing the earlier. -/
def update (values : SortedMap κ ν) (entries : List (κ × ν)) : SortedMap κ ν :=
  entries.foldl (fun current entry => current.set entry.1 entry.2) values

def ofList (entries : List (κ × ν)) : SortedMap κ ν := update ∅ entries

theorem lookup_cons_eq (entry : κ × ν) (rest : List (κ × ν)) (key : κ) :
    (entry :: rest).lookup key = if key = entry.1 then some entry.2 else rest.lookup key := by
  obtain ⟨head, value⟩ := entry
  rw [List.lookup_cons]
  by_cases same : key = head
  · simp [same]
  · simp [same, beq_false_of_ne same]

theorem lookup_setEntry (key : κ) (value : ν) (entries : List (κ × ν)) (other : κ) :
    (setEntry key value entries).lookup other =
      if other = key then some value else entries.lookup other := by
  induction entries with
  | nil => rw [setEntry, lookup_cons_eq]
  | cons head rest ih =>
      rw [setEntry]
      split
      · rw [lookup_cons_eq]
      · split
        · rename_i isHead
          rw [lookup_cons_eq, lookup_cons_eq, ← isHead]
          split <;> rfl
        · rename_i notHead
          rw [lookup_cons_eq, lookup_cons_eq, ih]
          by_cases same : other = key
          · subst same
            rw [if_neg notHead, if_pos rfl, if_pos rfl]
          · rw [if_neg same, if_neg same]

@[simp] theorem get_empty (key : κ) : (∅ : SortedMap κ ν).get key = none := rfl

variable (values : SortedMap κ ν)

theorem get_set (key : κ) (value : ν) (other : κ) :
    (values.set key value).get other = if other = key then some value else values.get other :=
  lookup_setEntry key value values.entries other

@[simp] theorem get_set_self (key : κ) (value : ν) :
    (values.set key value).get key = some value := by rw [get_set, if_pos rfl]

theorem get_set_of_ne {key other : κ} (different : other ≠ key) (values : SortedMap κ ν)
    (value : ν) : (values.set key value).get other = values.get other := by
  rw [get_set, if_neg different]

theorem get_erase (key other : κ) :
    (values.erase key).get other = if other = key then none else values.get other := by
  obtain ⟨entries, sorted⟩ := values
  change (entries.filter _).lookup other = if other = key then none else entries.lookup other
  clear sorted
  induction entries with
  | nil => simp
  | cons head rest ih =>
      by_cases isKey : head.1 = key
      · rw [List.filter_cons_of_neg (by simpa using isKey), ih, lookup_cons_eq, isKey]
        split <;> rfl
      · rw [List.filter_cons_of_pos (by simpa using isKey), lookup_cons_eq, lookup_cons_eq, ih]
        by_cases same : other = key
        · subst same
          rw [if_neg (Ne.symm isKey), if_pos rfl, if_pos rfl]
        · rw [if_neg same, if_neg same]

theorem get_eq_some_iff {values : SortedMap κ ν} {key : κ} {value : ν} :
    values.get key = some value ↔ (key, value) ∈ values.entries := by
  obtain ⟨entries, sorted⟩ := values
  change entries.lookup key = some value ↔ _
  induction entries with
  | nil => simp
  | cons head rest ih =>
      obtain ⟨above, later⟩ := List.pairwise_cons.mp sorted
      rw [lookup_cons_eq, List.mem_cons]
      by_cases same : key = head.1
      · subst same
        have absent : (head.1, value) ∉ rest := fun member => lt_irrefl _ (above (head.1, value) member)
        rw [if_pos rfl]
        constructor
        · exact fun equal => Or.inl (Prod.ext rfl (Option.some.inj equal).symm)
        · rintro (equal | member)
          · exact congrArg some (congrArg Prod.snd equal).symm
          · exact absurd member absent
      · have apart : (key, value) ≠ head := fun equal => same (congrArg Prod.fst equal)
        rw [if_neg same, ih later]
        exact ⟨Or.inr, fun either => either.resolve_left apart⟩

theorem get_mapValues {ω : Type*} (change : κ → ν → ω) (key : κ) :
    (values.mapValues change).get key = (values.get key).map (change key) := by
  obtain ⟨entries, sorted⟩ := values
  change (entries.map _).lookup key = (entries.lookup key).map (change key)
  clear sorted
  induction entries with
  | nil => rfl
  | cons head rest ih =>
      rw [List.map_cons, lookup_cons_eq, lookup_cons_eq, ih]
      by_cases same : key = head.1
      · rw [if_pos same, if_pos same, same]
        rfl
      · rw [if_neg same, if_neg same]

theorem get_isSome_iff {values : SortedMap κ ν} {key : κ} :
    (values.get key).isSome ↔ key ∈ values.keys := by
  rw [Option.isSome_iff_exists, keys, List.mem_map]
  exact ⟨fun ⟨value, found⟩ => ⟨(key, value), get_eq_some_iff.mp found, rfl⟩,
    fun ⟨entry, member, same⟩ => ⟨entry.2, get_eq_some_iff.mpr (same ▸ member)⟩⟩

/-- Mappings with the same lookups are equal. -/
theorem ext_get {first second : SortedMap κ ν} (same : ∀ key, first.get key = second.get key) :
    first = second := by
  have members : ∀ entry, entry ∈ first.entries ↔ entry ∈ second.entries := fun entry => by
    rw [← @get_eq_some_iff _ _ _ first entry.1, ← @get_eq_some_iff _ _ _ second entry.1, same]
  have nodup : ∀ {entries : List (κ × ν)},
      entries.Pairwise (fun first second => first.1 < second.1) → entries.Nodup :=
    fun sorted => sorted.imp fun below equal => (congrArg Prod.fst equal ▸ below).false
  have perm : first.entries.Perm second.entries :=
    (List.perm_ext_iff_of_nodup (nodup first.sorted) (nodup second.sorted)).mpr members
  have equal : first.entries = second.entries := perm.eq_of_pairwise
    (fun _ _ _ _ below above => absurd (below.trans above) (lt_irrefl _)) first.sorted second.sorted
  cases first
  cases second
  cases equal
  rfl

theorem update_cons (entry : κ × ν) (rest : List (κ × ν)) :
    values.update (entry :: rest) = (values.set entry.1 entry.2).update rest := rfl

@[simp] theorem update_nil : values.update [] = values := rfl

/-- Updating with entries of distinct keys takes their values where they have any. -/
theorem get_update_of_nodup {entries : List (κ × ν)} (distinct : (entries.map Prod.fst).Nodup)
    (values : SortedMap κ ν) (key : κ) :
    (values.update entries).get key = (entries.lookup key).or (values.get key) := by
  induction entries generalizing values with
  | nil => rfl
  | cons head rest ih =>
      rw [List.map_cons, List.nodup_cons] at distinct
      rw [update_cons, ih distinct.2, get_set, lookup_cons_eq]
      by_cases same : key = head.1
      · subst same
        have absent : rest.lookup head.1 = none := by
          rw [List.lookup_eq_none_iff]
          intro entry member
          refine bne_iff_ne.mpr fun same => distinct.1 ?_
          rw [same]
          exact List.mem_map_of_mem member
        rw [absent, if_pos rfl, if_pos rfl]
        rfl
      · rw [if_neg same, if_neg same]

theorem get_ofList_eq_some_iff {entries : List (κ × ν)} (distinct : (entries.map Prod.fst).Nodup)
    {key : κ} {value : ν} : (ofList entries).get key = some value ↔ (key, value) ∈ entries := by
  have nothing : (∅ : SortedMap κ ν).get key = none := rfl
  rw [ofList, get_update_of_nodup distinct, nothing, Option.or_none]
  induction entries with
  | nil => simp
  | cons head rest ih =>
      rw [List.map_cons, List.nodup_cons] at distinct
      rw [lookup_cons_eq, List.mem_cons]
      by_cases same : key = head.1
      · rw [if_pos same, Option.some.injEq]
        constructor
        · rintro rfl
          exact Or.inl (Prod.ext same rfl)
        · rintro (found | member)
          · rw [← found]
          · exact absurd (same ▸ List.mem_map_of_mem member) distinct.1
      · rw [if_neg same]
        refine (ih distinct.2).trans ⟨Or.inr, fun found => found.resolve_left fun equal => ?_⟩
        exact same (congrArg Prod.fst equal)

theorem mem_keys_update {entries : List (κ × ν)} {values : SortedMap κ ν} {key : κ} :
    key ∈ (values.update entries).keys ↔ key ∈ entries.map Prod.fst ∨ key ∈ values.keys := by
  induction entries generalizing values with
  | nil => simp
  | cons head rest ih =>
      rw [update_cons, ih, ← get_isSome_iff, get_set, List.map_cons, List.mem_cons,
        ← @get_isSome_iff _ _ _ values]
      by_cases same : key = head.1
      · simp [same]
      · simp [same]

theorem mem_keys_ofList {entries : List (κ × ν)} {key : κ} :
    key ∈ (ofList entries).keys ↔ key ∈ entries.map Prod.fst :=
  mem_keys_update.trans (or_iff_left List.not_mem_nil)

theorem nodup_keys : values.keys.Nodup :=
  List.pairwise_map.mpr (values.sorted.imp fun below => below.ne)

/-- The entries of distinct keys are those that are stored. -/
theorem entries_ofList_perm {entries : List (κ × ν)} (distinct : (entries.map Prod.fst).Nodup) :
    (ofList entries).entries.Perm entries := by
  refine (List.perm_ext_iff_of_nodup ((nodup_keys _).of_map Prod.fst) (distinct.of_map _)).mpr ?_
  rintro ⟨key, value⟩
  rw [← get_ofList_eq_some_iff distinct, get_eq_some_iff]

theorem ofList_eq_of_perm {entries others : List (κ × ν)} (distinct : (entries.map Prod.fst).Nodup)
    (same : entries.Perm others) : ofList entries = ofList others := by
  refine ext_get fun key => Option.ext fun value => ?_
  rw [get_ofList_eq_some_iff distinct, get_ofList_eq_some_iff ((same.map _).nodup_iff.mp distinct)]
  exact same.mem_iff

/-- Entries that are changed once can be changed again. -/
theorem ofList_filterMap_again (values : SortedMap κ ν) {change : κ × ν → Option (κ × ν)}
    (keyed : ∀ entry other, change entry = some other → other.1 = entry.1)
    (again : ∀ entry other, change entry = some other → change other = some other) :
    ofList ((ofList (values.entries.filterMap change)).entries.filterMap change) =
      ofList (values.entries.filterMap change) := by
  have distinct : ((values.entries.filterMap change).map Prod.fst).Nodup := by
    rw [List.Nodup, List.pairwise_map]
    refine values.sorted.filterMap _ fun first second below one foundOne two foundTwo => ?_
    rw [keyed _ _ foundOne, keyed _ _ foundTwo]
    exact below.ne
  have same := entries_ofList_perm distinct
  have fixed : ∀ entry ∈ (ofList (values.entries.filterMap change)).entries,
      change entry = some entry := by
    intro entry member
    obtain ⟨before, -, changed⟩ := List.mem_filterMap.mp (same.mem_iff.mp member)
    exact again before entry changed
  rw [List.filterMap_congr fixed, List.filterMap_some]
  exact (ofList_eq_of_perm distinct same.symm).symm

end SortedMap

end PlantManager.Mapping

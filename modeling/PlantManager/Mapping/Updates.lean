import PlantManager.Mapping.Dictionary

/-! # Filtered and merged dictionaries

`Mapping.Dictionary.get_filter` and `Mapping.Dictionary.get_update` say
what the two operations leave under a key.
-/

namespace PlantManager.Mapping.Dictionary

variable {κ ν : Type*} [DecidableEq κ]

/-- The entries that pass a test. -/
def filter (values : Dictionary κ ν) (keep : κ → ν → Bool) : Dictionary κ ν :=
  ⟨values.entries.filter fun entry => keep entry.1 entry.2,
    values.distinct.sublist (List.filter_sublist.map Prod.fst)⟩

theorem get_filter_eq_some_iff {values : Dictionary κ ν} {keep : κ → ν → Bool} {key : κ}
    {value : ν} :
    (values.filter keep).get key = some value ↔ values.get key = some value ∧ keep key value := by
  rw [get_eq_some_iff, get_eq_some_iff]
  exact List.mem_filter

theorem mem_keys_filter {values : Dictionary κ ν} {keep : κ → Bool} {key : κ} :
    key ∈ (values.filter fun key _ => keep key).keys ↔ key ∈ values.keys ∧ keep key := by
  rw [mem_keys_iff, mem_keys_iff, ← exists_and_right]
  exact exists_congr fun value => get_filter_eq_some_iff

variable (values : Dictionary κ ν)

theorem keys_modify (key : κ) (change : ν → ν) : (values.modify key change).keys = values.keys := by
  rw [modify]
  split
  · rfl
  · rename_i value found
    rw [keys_alter, if_pos (mem_keys_iff.mpr ⟨value, found⟩)]

omit [DecidableEq κ] in
theorem keys_mapValues {ω : Type*} (change : ν → ω) :
    (values.mapValues change).keys = values.keys := by
  rw [keys, keys, mapValues, List.map_map]
  rfl

/-- Store the entries of another dictionary. -/
def update (values other : Dictionary κ ν) : Dictionary κ ν :=
  other.entries.foldl (fun values entry => values.alter entry.1 fun _ => entry.2) values

theorem get_update (other : Dictionary κ ν) (key : κ) :
    (values.update other).get key = (other.get key).or (values.get key) := by
  obtain ⟨entries, distinct⟩ := other
  change (entries.foldl (fun values entry => values.alter entry.1 fun _ => entry.2) values).get key
    = (entries.lookup key).or (values.get key)
  induction entries generalizing values with
  | nil => rfl
  | cons entry rest ih =>
      obtain ⟨absent, later⟩ := List.nodup_cons.mp distinct
      rw [List.foldl_cons, ih _ later, get_alter, lookup_cons_eq]
      by_cases same : key = entry.1
      · subst same
        have unstored : rest.lookup entry.1 = none :=
          (@get_eq_none_iff κ ν _ ⟨rest, later⟩ entry.1).mpr absent
        rw [if_pos rfl, if_pos rfl, unstored]
        rfl
      · rw [if_neg same, if_neg same]

/-- The first item of a key stays. -/
theorem get_foldl_setDefault (key : ν → κ) (items : List ν) (values : Dictionary κ ν)
    (wanted : κ) :
    (items.foldl (fun values item => values.setDefault (key item) item) values).get wanted =
      (values.get wanted).or (items.filter fun item => key item = wanted).head? := by
  induction items generalizing values with
  | nil => simp
  | cons item rest ih =>
      rw [List.foldl_cons, ih, setDefault, get_alter]
      by_cases same : wanted = key item
      · subst same
        cases values.get (key item) <;> simp
      · rw [if_neg same, List.filter_cons_of_neg (by simpa using Ne.symm same)]

/-- A value that occurs once is that of one key. -/
theorem key_unique_of_count_eq_one [DecidableEq ν] {values : Dictionary κ ν} {value : ν}
    {first second : κ} (once : values.values.count value = 1)
    (one : values.get first = some value) (two : values.get second = some value) :
    first = second := by
  have single : (values.entries.filter fun entry => entry.2 == value).length = 1 := by
    rw [← List.countP_eq_length_filter, ← once, Dictionary.values, List.count, List.countP_map]
    rfl
  obtain ⟨entry, only⟩ := List.length_eq_one_iff.mp single
  have mem : ∀ {key}, values.get key = some value → (key, value) = entry := fun found =>
    List.mem_singleton.mp (only ▸ List.mem_filter.mpr ⟨get_eq_some_iff.mp found, beq_self_eq_true _⟩)
  exact congrArg Prod.fst ((mem one).trans (mem two).symm)

end PlantManager.Mapping.Dictionary

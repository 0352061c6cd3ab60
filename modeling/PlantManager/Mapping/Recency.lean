import PlantManager.Mapping.Dictionary

/-! # Dictionaries in the order of use

Storing a value again moves its key to the end (`Mapping.Dictionary.push`), so that
the oldest entries are at the front and can be dropped.
-/

namespace PlantManager.Mapping.Dictionary

variable {κ ν : Type*} [DecidableEq κ]

/-- Remove the value of a key. -/
def erase (values : Dictionary κ ν) (key : κ) : Dictionary κ ν :=
  ⟨values.entries.filter fun entry => entry.1 ≠ key,
    values.distinct.sublist (List.filter_sublist.map Prod.fst)⟩

variable {values : Dictionary κ ν}

variable {entry : κ × ν}

theorem mem_entries_erase {key : κ} :
    entry ∈ (values.erase key).entries ↔ entry ∈ values.entries ∧ entry.1 ≠ key := by
  simp [erase]

/-- Store a value as the last. -/
def push (values : Dictionary κ ν) (key : κ) (value : ν) : Dictionary κ ν where
  entries := (values.erase key).entries ++ [(key, value)]
  distinct := by
    rw [List.map_append]
    refine List.nodup_append.mpr ⟨(values.erase key).distinct, List.nodup_singleton _, ?_⟩
    intro first member second isKey
    obtain ⟨entry, stored, rfl⟩ := List.mem_map.mp member
    rw [List.map_singleton, List.mem_singleton] at isKey
    exact isKey ▸ (mem_entries_erase.mp stored).2

theorem mem_entries_push {key : κ} {value : ν} :
    entry ∈ (values.push key value).entries ↔
      entry ∈ values.entries ∧ entry.1 ≠ key ∨ entry = (key, value) := by
  simp only [push, List.mem_append, List.mem_singleton, mem_entries_erase]

theorem length_erase_le (values : Dictionary κ ν) (key : κ) :
    (values.erase key).entries.length ≤ values.entries.length :=
  List.length_filter_le _ _

/-- A key that is stored again takes no more room. -/
theorem length_push_of_mem {key : κ} (value : ν) (stored : key ∈ values.keys) :
    (values.push key value).entries.length ≤ values.entries.length := by
  have shorter : (values.erase key).entries.length < values.entries.length := by
    obtain ⟨entry, member, same⟩ := List.mem_map.mp stored
    exact List.length_filter_lt_length_iff_exists.mpr ⟨entry, member, by simpa using same⟩
  rw [push, List.length_append, List.length_singleton]
  exact shorter

/-- Drop the oldest entries until few enough are left. -/
def keepNewest (values : Dictionary κ ν) (limit : ℕ) : Dictionary κ ν :=
  ⟨values.entries.drop (values.entries.length - limit),
    values.distinct.sublist ((List.drop_sublist _ _).map Prod.fst)⟩

omit [DecidableEq κ] in
theorem mem_of_mem_keepNewest {limit : ℕ} (member : entry ∈ (values.keepNewest limit).entries) :
    entry ∈ values.entries :=
  List.mem_of_mem_drop member

omit [DecidableEq κ] in
theorem length_keepNewest_le (values : Dictionary κ ν) (limit : ℕ) :
    (values.keepNewest limit).entries.length ≤ limit := by
  rw [keepNewest, List.length_drop]
  omega

end PlantManager.Mapping.Dictionary

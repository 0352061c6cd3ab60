import Mathlib

/-! # Dictionaries in the order of insertion

A dictionary keeps its entries in the order in which their keys were first stored.
`Mapping.Dictionary.get_alter` and
`Mapping.Dictionary.keys_alter` say what one store does.
`Mapping.Dictionary.get_groupBy` describes grouping a list by a key, and
`Mapping.sum_map_foldl_modify` the sum of a quantity over a list some of
whose items were changed in place; `Mapping.map_filter_range` reads a list
at the positions that pass a test.
-/

namespace PlantManager.Mapping

/-- Entries with distinct keys, in the order of insertion. -/
structure Dictionary (κ ν : Type*) where
  entries : List (κ × ν)
  distinct : (entries.map Prod.fst).Nodup

namespace Dictionary

variable {κ ν ω : Type*} [DecidableEq κ]

instance : EmptyCollection (Dictionary κ ν) := ⟨⟨[], List.nodup_nil⟩⟩

def keys (values : Dictionary κ ν) : List κ := values.entries.map Prod.fst

def values (dictionary : Dictionary κ ν) : List ν := dictionary.entries.map Prod.snd

def get (values : Dictionary κ ν) (key : κ) : Option ν := values.entries.lookup key

/-- Replace the value of a key, or append one. -/
def alterEntries (key : κ) (change : Option ν → ν) : List (κ × ν) → List (κ × ν)
  | [] => [(key, change none)]
  | entry :: rest =>
      if entry.1 = key then (key, change (some entry.2)) :: rest
      else entry :: alterEntries key change rest

theorem map_fst_alterEntries (key : κ) (change : Option ν → ν) (entries : List (κ × ν)) :
    (alterEntries key change entries).map Prod.fst =
      if key ∈ entries.map Prod.fst then entries.map Prod.fst
      else entries.map Prod.fst ++ [key] := by
  induction entries with
  | nil => rfl
  | cons entry rest ih =>
      rw [alterEntries]
      by_cases same : entry.1 = key
      · rw [if_pos same, List.map_cons, List.map_cons, if_pos (by simp [same]), same]
      · have iff : key ∈ (entry :: rest).map Prod.fst ↔ key ∈ rest.map Prod.fst := by
          rw [List.map_cons, List.mem_cons, or_iff_right (Ne.symm same)]
        rw [if_neg same, List.map_cons, ih]
        by_cases later : key ∈ rest.map Prod.fst
        · rw [if_pos later, if_pos (iff.mpr later), List.map_cons]
        · rw [if_neg later, if_neg fun member => later (iff.mp member)]
          rfl

variable {values : Dictionary κ ν} {key : κ}

theorem nodup_alterEntries {change : Option ν → ν} {entries : List (κ × ν)}
    (distinct : (entries.map Prod.fst).Nodup) :
    ((alterEntries key change entries).map Prod.fst).Nodup := by
  rw [map_fst_alterEntries]
  split
  · exact distinct
  · rename_i absent
    refine List.nodup_append.mpr ⟨distinct, List.nodup_singleton _, ?_⟩
    rintro first member second isKey rfl
    exact absent (List.mem_singleton.mp isKey ▸ member)

/-- Store a value computed from the one stored before. -/
def alter (values : Dictionary κ ν) (key : κ) (change : Option ν → ν) : Dictionary κ ν :=
  ⟨alterEntries key change values.entries, nodup_alterEntries values.distinct⟩

/-- Store a value unless the key has one. -/
def setDefault (values : Dictionary κ ν) (key : κ) (value : ν) : Dictionary κ ν :=
  values.alter key fun stored => stored.getD value

/-- Change every value. -/
def mapValues (values : Dictionary κ ν) (change : ν → ω) : Dictionary κ ω where
  entries := values.entries.map fun entry => (entry.1, change entry.2)
  distinct := by
    have keys : (values.entries.map fun entry => (entry.1, change entry.2)).map Prod.fst =
        values.entries.map Prod.fst := by rw [List.map_map]; rfl
    exact keys ▸ values.distinct

theorem lookup_cons_eq (entry : κ × ν) (rest : List (κ × ν)) (key : κ) :
    (entry :: rest).lookup key = if key = entry.1 then some entry.2 else rest.lookup key := by
  obtain ⟨head, value⟩ := entry
  rw [List.lookup_cons]
  by_cases same : key = head
  · simp [same]
  · simp [same, beq_false_of_ne same]

@[simp] theorem get_empty (key : κ) : (∅ : Dictionary κ ν).get key = none := rfl

omit [DecidableEq κ] in
@[simp] theorem keys_empty : (∅ : Dictionary κ ν).keys = [] := rfl

theorem get_alter (values : Dictionary κ ν) (key : κ) (change : Option ν → ν) (other : κ) :
    (values.alter key change).get other =
      if other = key then some (change (values.get key)) else values.get other := by
  obtain ⟨entries, distinct⟩ := values
  change (alterEntries key change entries).lookup other =
    if other = key then some (change (entries.lookup key)) else entries.lookup other
  clear distinct
  induction entries with
  | nil => rw [alterEntries, lookup_cons_eq]; rfl
  | cons entry rest ih =>
      rw [alterEntries]
      by_cases same : entry.1 = key
      · rw [if_pos same, lookup_cons_eq, lookup_cons_eq, lookup_cons_eq, if_pos same.symm, same]
        by_cases isKey : other = key
        · rw [if_pos isKey, if_pos isKey]
        · rw [if_neg isKey, if_neg isKey, if_neg isKey]
      · rw [if_neg same, lookup_cons_eq, lookup_cons_eq, lookup_cons_eq, ih,
          if_neg (Ne.symm same)]
        by_cases isHead : other = entry.1
        · have different : other ≠ key := fun isKey => same (isHead.symm.trans isKey)
          rw [if_pos isHead, if_neg different, if_pos isHead]
        · rw [if_neg isHead, if_neg isHead]

theorem keys_alter (values : Dictionary κ ν) (key : κ) (change : Option ν → ν) :
    (values.alter key change).keys =
      if key ∈ values.keys then values.keys else values.keys ++ [key] :=
  map_fst_alterEntries key change values.entries

theorem mem_keys_alter {change : Option ν → ν} {other : κ} :
    other ∈ (values.alter key change).keys ↔ other = key ∨ other ∈ values.keys := by
  rw [keys_alter]
  split
  · rename_i present
    exact ⟨Or.inr, fun either => either.elim (fun same => same ▸ present) id⟩
  · rw [List.mem_append, List.mem_singleton, or_comm]

theorem get_eq_some_iff {value : ν} :
    values.get key = some value ↔ (key, value) ∈ values.entries := by
  obtain ⟨entries, distinct⟩ := values
  change entries.lookup key = some value ↔ (key, value) ∈ entries
  induction entries with
  | nil => simp
  | cons entry rest ih =>
      obtain ⟨absent, later⟩ := List.nodup_cons.mp distinct
      rw [lookup_cons_eq, List.mem_cons]
      by_cases same : key = entry.1
      · have notLater : (key, value) ∉ rest := fun member =>
          absent (same ▸ List.mem_map_of_mem (f := Prod.fst) member)
        rw [if_pos same, or_iff_left notLater, Option.some.injEq]
        exact ⟨fun equal => Prod.ext same equal.symm, fun equal => (congrArg Prod.snd equal).symm⟩
      · have notHead : (key, value) ≠ entry := fun equal => same (congrArg Prod.fst equal)
        rw [if_neg same, or_iff_right notHead, ih later]

theorem mem_keys_iff : key ∈ values.keys ↔ ∃ value, values.get key = some value := by
  rw [keys, List.mem_map]
  exact ⟨fun ⟨entry, member, same⟩ => ⟨entry.2, get_eq_some_iff.mpr (same ▸ member)⟩,
    fun ⟨value, found⟩ => ⟨(key, value), get_eq_some_iff.mp found, rfl⟩⟩

theorem get_eq_none_iff : values.get key = none ↔ key ∉ values.keys := by
  rw [mem_keys_iff, Option.eq_none_iff_forall_ne_some, not_exists]

theorem mem_entries_setDefault {value : ν} {entry : κ × ν}
    (member : entry ∈ (values.setDefault key value).entries) :
    entry ∈ values.entries ∨ entry = (key, value) := by
  obtain ⟨other, found⟩ := entry
  have stored := get_eq_some_iff.mpr member
  rw [setDefault, get_alter] at stored
  by_cases same : other = key
  · rw [if_pos same, Option.some.injEq] at stored
    cases before : values.get key with
    | none =>
        rw [before] at stored
        exact Or.inr (by rw [same, ← stored]; rfl)
    | some old =>
        rw [before] at stored
        exact Or.inl (get_eq_some_iff.mp (by rw [same, before, ← stored]; rfl))
  · rw [if_neg same] at stored
    exact Or.inl (get_eq_some_iff.mp stored)

omit [DecidableEq κ] in
theorem nodup_keys (values : Dictionary κ ν) : values.keys.Nodup := values.distinct

omit [DecidableEq κ] in
@[simp] theorem length_values (dictionary : Dictionary κ ν) :
    dictionary.values.length = dictionary.keys.length := by
  rw [values, keys, List.length_map, List.length_map]

theorem get_mapValues (values : Dictionary κ ν) (change : ν → ω) (key : κ) :
    (values.mapValues change).get key = (values.get key).map change := by
  obtain ⟨entries, distinct⟩ := values
  change (entries.map fun entry => (entry.1, change entry.2)).lookup key =
    (entries.lookup key).map change
  clear distinct
  induction entries with
  | nil => rfl
  | cons entry rest ih =>
      rw [List.map_cons, lookup_cons_eq, lookup_cons_eq, ih]
      split <;> rfl

/-- What is accumulated under a key are its items, in their order. -/
theorem getD_foldl_alter (key : ω → κ) (add : ω → ν → ν) (zero : ν) (items : List ω)
    (values : Dictionary κ ν) (wanted : κ) :
    ((items.foldl (fun values item =>
        values.alter (key item) fun stored => add item (stored.getD zero)) values).get wanted).getD
          zero =
      (items.filter fun item => key item = wanted).foldl (fun value item => add item value)
        ((values.get wanted).getD zero) := by
  induction items generalizing values with
  | nil => rfl
  | cons item rest ih =>
      rw [List.foldl_cons, ih, get_alter]
      by_cases same : wanted = key item
      · subst same
        simp
      · rw [if_neg same, List.filter_cons_of_neg (by simpa using Ne.symm same)]

theorem mem_keys_foldl_alter {key : ω → κ} {change : ω → Option ν → ν} {items : List ω}
    {values : Dictionary κ ν} {wanted : κ} :
    wanted ∈ (items.foldl (fun values item => values.alter (key item) (change item)) values).keys ↔
      wanted ∈ values.keys ∨ ∃ item ∈ items, key item = wanted := by
  induction items generalizing values with
  | nil => simp
  | cons item rest ih =>
      rw [List.foldl_cons, ih, mem_keys_alter, List.exists_mem_cons_iff, or_assoc,
        or_comm (a := wanted = key item), or_assoc, eq_comm (a := wanted)]
      exact or_congr_right or_comm

/-- What a store under two keys, one after the other, leaves under two keys. -/
theorem bind_get_alter_alter {ι : Type*} [DecidableEq ι] (values : Dictionary ι (Dictionary κ ν))
    (outer : ι) (inner : κ) (change : Option ν → ν) (other : ι) (key : κ) :
    ((values.alter outer fun stored => (stored.getD ∅).alter inner change).get other).bind
        (·.get key) =
      if other = outer ∧ key = inner then
        some (change ((values.get outer).bind (·.get inner)))
      else (values.get other).bind (·.get key) := by
  rw [get_alter]
  by_cases same : other = outer
  · subst same
    have stored : ∀ wanted, ((values.get other).getD ∅).get wanted =
        (values.get other).bind (·.get wanted) := by
      intro wanted
      cases values.get other <;> rfl
    rw [if_pos rfl, Option.bind_some, get_alter, stored, stored]
    simp only [true_and]
  · rw [if_neg same, if_neg fun both => same both.1]

/-- Change the value of a key that has one. -/
def modify (values : Dictionary κ ν) (key : κ) (change : ν → ν) : Dictionary κ ν :=
  match values.get key with
  | none => values
  | some value => values.alter key fun _ => change value

theorem get_modify (values : Dictionary κ ν) (key : κ) (change : ν → ν) (other : κ) :
    (values.modify key change).get other =
      if other = key then (values.get other).map change else values.get other := by
  cases found : values.get key with
  | none =>
      rw [modify, found]
      by_cases same : other = key
      · rw [if_pos same, same, found, Option.map_none]
      · rw [if_neg same]
  | some value =>
      rw [modify, found]
      rw [get_alter]
      by_cases same : other = key
      · rw [if_pos same, if_pos same, same, found, Option.map_some]
      · rw [if_neg same, if_neg same]

/-- What is added to a value is added to the sum of all. -/
theorem sum_values_alter {M : Type*} [AddCommMonoid M] (values : Dictionary κ M) (key : κ)
    (amount : M) : (values.alter key fun stored => stored.getD 0 + amount).values.sum =
      values.values.sum + amount := by
  obtain ⟨entries, distinct⟩ := values
  change ((alterEntries key (fun stored => stored.getD 0 + amount) entries).map Prod.snd).sum =
    (entries.map Prod.snd).sum + amount
  clear distinct
  induction entries with
  | nil => simp [alterEntries]
  | cons entry rest ih =>
      rw [alterEntries]
      split
      · rw [List.map_cons, List.map_cons, List.sum_cons, List.sum_cons, Option.getD_some,
          add_right_comm]
      · rw [List.map_cons, List.map_cons, List.sum_cons, List.sum_cons, ih, add_assoc]

/-- The values of the items under their keys, where a later item replaces an earlier one. -/
def ofItems (key : ω → κ) (value : ω → ν) (items : List ω) : Dictionary κ ν :=
  items.foldl (fun values item => values.alter (key item) fun _ => value item) ∅

/-- A key has the value of its last item. -/
theorem get_ofItems (key : ω → κ) (value : ω → ν) (items : List ω) (wanted : κ) :
    (ofItems key value items).get wanted =
      ((items.filter fun item => key item = wanted).getLast?).map value := by
  unfold ofItems
  induction items using List.reverseRecOn with
  | nil => rfl
  | append_singleton items item ih =>
      rw [List.foldl_append, List.foldl_cons, List.foldl_nil, get_alter, List.filter_append]
      by_cases same : wanted = key item
      · rw [if_pos same, List.filter_cons_of_pos (by simpa using same.symm), List.filter_nil,
          List.getLast?_concat, Option.map_some]
      · rw [if_neg same, ih, List.filter_cons_of_neg (by simpa using Ne.symm same), List.filter_nil,
          List.append_nil]

/-- What the entries emit for one owner is what the entry of that key emits. -/
theorem filter_flatMap_entries {β : Type*} (owner : β → κ) {emit : κ → ν → List β}
    {values : Dictionary κ ν}
    (owned : ∀ entry ∈ values.entries, ∀ item ∈ emit entry.1 entry.2, owner item = entry.1)
    (wanted : κ) :
    (values.entries.flatMap fun entry => emit entry.1 entry.2).filter
        (fun item => owner item = wanted) = (values.get wanted).elim [] (emit wanted) := by
  obtain ⟨entries, distinct⟩ := values
  change (List.flatMap _ entries).filter _ = (entries.lookup wanted).elim [] _
  induction entries with
  | nil => rfl
  | cons entry rest ih =>
      obtain ⟨absent, later⟩ := List.nodup_cons.mp distinct
      obtain ⟨own, owned⟩ := List.forall_mem_cons.mp owned
      rw [List.flatMap_cons, List.filter_append, lookup_cons_eq]
      by_cases same : wanted = entry.1
      · subst same
        have nothing : (rest.flatMap fun entry => emit entry.1 entry.2).filter
            (fun item => owner item = entry.1) = [] := by
          refine List.filter_eq_nil_iff.mpr fun item member isWanted => absent ?_
          obtain ⟨other, isOther, emitted⟩ := List.mem_flatMap.mp member
          exact of_decide_eq_true isWanted ▸ owned other isOther item emitted ▸
            List.mem_map_of_mem isOther
        rw [nothing, List.append_nil, if_pos rfl]
        exact List.filter_eq_self.mpr fun item emitted => decide_eq_true (own item emitted)
      · rw [if_neg same, ih later owned, List.filter_eq_nil_iff.mpr fun item emitted isWanted =>
          same ((of_decide_eq_true isWanted).symm.trans (own item emitted))]
        rfl

/-- A pass over the entries whose steps leave alone what is read of another key applies the effect
of one entry. -/
theorem read_foldl_entries {σ β : Type*} (read : σ → β) (wanted : κ) {step : σ → κ × ν → σ}
    (effect : ν → β → β) (own : ∀ state value, read (step state (wanted, value)) =
      effect value (read state))
    (other : ∀ state entry, entry.1 ≠ wanted → read (step state entry) = read state)
    (values : Dictionary κ ν) (state : σ) :
    read (values.entries.foldl step state) =
      (values.get wanted).elim (read state) fun value => effect value (read state) := by
  obtain ⟨entries, distinct⟩ := values
  change read (entries.foldl step state) = (entries.lookup wanted).elim _ _
  have untouched : ∀ rest : List (κ × ν), wanted ∉ rest.map Prod.fst → ∀ state,
      read (rest.foldl step state) = read state := by
    intro rest absent
    induction rest with
    | nil => exact fun _ => rfl
    | cons entry rest ih =>
        rw [List.map_cons, List.mem_cons, not_or] at absent
        intro state
        rw [List.foldl_cons, ih absent.2, other state entry (Ne.symm absent.1)]
  induction entries generalizing state with
  | nil => rfl
  | cons entry rest ih =>
      rw [List.map_cons, List.nodup_cons] at distinct
      rw [List.foldl_cons, lookup_cons_eq]
      by_cases same : wanted = entry.1
      · rw [if_pos same, untouched rest (same ▸ distinct.1)]
        subst same
        exact own state entry.2
      · rw [if_neg same, ih _ distinct.2, other state entry (Ne.symm same)]

/-- Collect the items of each key, in their order. -/
def groupBy (key : ω → κ) (items : List ω) : Dictionary κ (List ω) :=
  items.foldl (fun groups item => groups.alter (key item) fun group => group.getD [] ++ [item]) ∅

theorem getD_foldl_groupBy (key : ω → κ) (items : List ω) (groups : Dictionary κ (List ω))
    (wanted : κ) :
    ((items.foldl (fun groups item =>
        groups.alter (key item) fun group => group.getD [] ++ [item]) groups).get wanted).getD [] =
      (groups.get wanted).getD [] ++ items.filter fun item => key item = wanted := by
  induction items generalizing groups with
  | nil => simp
  | cons item rest ih =>
      rw [List.foldl_cons, ih, get_alter]
      by_cases same : wanted = key item
      · subst same
        simp
      · rw [if_neg same, List.filter_cons_of_neg (by simpa using Ne.symm same)]

/-- The group of a key holds the items with that key. -/
theorem getD_get_groupBy (key : ω → κ) (items : List ω) (wanted : κ) :
    ((groupBy key items).get wanted).getD [] = items.filter fun item => key item = wanted := by
  rw [groupBy, getD_foldl_groupBy]
  rfl

theorem flatMap_alterEntries_perm (key : κ) (item : ω) (entries : List (κ × List ω)) :
    ((alterEntries key (fun group => group.getD [] ++ [item]) entries).flatMap Prod.snd).Perm
      (entries.flatMap Prod.snd ++ [item]) := by
  induction entries with
  | nil => exact .refl _
  | cons entry rest ih =>
      rw [alterEntries]
      split
      · rw [List.flatMap_cons, List.flatMap_cons, List.append_assoc, List.append_assoc]
        exact List.perm_append_comm.append_left _
      · rw [List.flatMap_cons, List.flatMap_cons, List.append_assoc]
        exact ih.append_left _

/-- The groups hold all the items. -/
theorem flatMap_groupBy_perm (key : ω → κ) (items : List ω) :
    ((groupBy key items).entries.flatMap Prod.snd).Perm items := by
  have extended : ∀ groups : Dictionary κ (List ω),
      ((items.foldl (fun groups item =>
        groups.alter (key item) fun group => group.getD [] ++ [item]) groups).entries.flatMap
          Prod.snd).Perm (groups.entries.flatMap Prod.snd ++ items) := by
    induction items with
    | nil => exact fun groups => .of_eq (List.append_nil _).symm
    | cons item rest ih =>
        intro groups
        refine (ih _).trans ?_
        rw [← List.singleton_append, ← List.append_assoc]
        exact (flatMap_alterEntries_perm (key item) item groups.entries).append_right rest
  exact extended ∅

/-- The keys of the groups are those of items. -/
theorem exists_of_mem_groupBy {key : ω → κ} {items : List ω} {wanted : κ}
    (member : wanted ∈ (groupBy key items).keys) : ∃ item ∈ items, key item = wanted :=
  (mem_keys_foldl_alter.mp member).resolve_left List.not_mem_nil

end Dictionary

section Positions

variable {α β : Type*}

/-- Reading the positions at which a list satisfies a test reads its filtered items. -/
theorem map_filter_range (test : α → Bool) (default : β) (value : α → β) (items : List α) :
    ((List.range items.length).filter fun index => (items[index]?).any test).map
        (fun index => (items[index]?).elim default value) =
      (items.filter test).map value := by
  induction items with
  | nil => rfl
  | cons item rest ih =>
      have later : (((List.range rest.length).map Nat.succ).filter fun index =>
          ((item :: rest)[index]?).any test).map
            (fun index => ((item :: rest)[index]?).elim default value) =
          (rest.filter test).map value := by
        rw [List.filter_map, List.map_map]
        exact ih
      rw [List.length_cons, List.range_succ_eq_map]
      by_cases holds : test item = true
      · rw [List.filter_cons_of_pos (by simpa using holds), List.filter_cons_of_pos holds,
          List.map_cons, List.map_cons, later]
        rfl
      · rw [List.filter_cons_of_neg (by simpa using holds), List.filter_cons_of_neg holds, later]

theorem map_mapIdx_eq_map {γ : Type*} {read : β → γ} {value : α → γ} {build : ℕ → α → β}
    (reads : ∀ index item, read (build index item) = value item) (items : List α) :
    (items.mapIdx build).map read = items.map value := by
  apply List.ext_getElem?
  intro index
  rw [List.getElem?_map, List.getElem?_mapIdx, List.getElem?_map]
  cases items[index]? with
  | none => rfl
  | some item => exact congrArg some (reads index item)

end Positions

section Modify

variable {α M : Type*} [AddCommMonoid M]

theorem sum_map_modify (measure added : α → M) (change : α → α)
    (adds : ∀ item, measure (change item) = measure item + added item) (items : List α)
    (index : ℕ) :
    ((items.modify index change).map measure).sum =
      (items.map measure).sum + (items[index]?).elim 0 added := by
  induction items generalizing index with
  | nil => simp
  | cons item rest ih =>
      cases index with
      | zero => simp [adds, add_right_comm]
      | succ index =>
          rw [List.modify_succ_cons, List.map_cons, List.sum_cons, List.map_cons, List.sum_cons,
            ih, List.getElem?_cons_succ, add_assoc]

/-- A quantity summed over a list grows by what each change in place adds to it. -/
theorem sum_map_foldl_modify (measure added : α → M) (change : α → α)
    (adds : ∀ item, measure (change item) = measure item + added item)
    (keeps : ∀ item, added (change item) = added item) (indices : List ℕ) (items : List α) :
    ((indices.foldl (fun items index => items.modify index change) items).map measure).sum =
      (items.map measure).sum + (indices.map fun index => (items[index]?).elim 0 added).sum := by
  induction indices generalizing items with
  | nil => simp
  | cons index rest ih =>
      have same : ∀ other : ℕ, ((items.modify index change)[other]?).elim 0 added =
          (items[other]?).elim 0 added := by
        intro other
        rw [List.getElem?_modify]
        cases items[other]? with
        | none => rfl
        | some item =>
            by_cases here : index = other
            · simp [here, keeps]
            · simp [here]
      rw [List.foldl_cons, ih, sum_map_modify measure added change adds, List.map_cons,
        List.sum_cons, add_assoc]
      simp only [same]

/-- Summing over the items that pass a test. -/
theorem sum_map_ite (test : α → Prop) [DecidablePred test] (measure : α → M) (items : List α) :
    (items.map fun item => if test item then measure item else 0).sum =
      ((items.filter test).map measure).sum := by
  induction items with
  | nil => rfl
  | cons item rest ih =>
      by_cases holds : test item
      · simp [holds, ih]
      · simp [holds, ih]

variable {items : List α}

/-- Among distinct items, a quantity of one item is counted once. -/
theorem sum_map_ite_eq_of_nodup [DecidableEq α] (distinct : items.Nodup) (wanted : α) (amount : M) :
    (items.map fun item => if item = wanted then amount else 0).sum =
      if wanted ∈ items then amount else 0 := by
  induction items with
  | nil => rfl
  | cons item rest ih =>
      obtain ⟨absent, later⟩ := List.nodup_cons.mp distinct
      rw [List.map_cons, List.sum_cons, ih later]
      by_cases same : item = wanted
      · subst same
        simp [absent]
      · simp [same, Ne.symm same]

/-- Items that count for nothing may be left out of a sum. -/
theorem sum_map_filter (test : α → Prop) [DecidablePred test] (measure : α → M)
    (nothing : ∀ item ∈ items, ¬test item → measure item = 0) :
    ((items.filter test).map measure).sum = (items.map measure).sum := by
  rw [← sum_map_ite]
  congr 1
  refine List.map_congr_left fun item member => ?_
  by_cases holds : test item
  · rw [if_pos holds]
  · rw [if_neg holds, nothing item member holds]

omit [AddCommMonoid M] in
theorem map_foldl_modify (value : α → M) (change : α → α)
    (keeps : ∀ item, value (change item) = value item) (indices : List ℕ) (items : List α) :
    (indices.foldl (fun items index => items.modify index change) items).map value =
      items.map value := by
  induction indices generalizing items with
  | nil => rfl
  | cons index rest ih =>
      rw [List.foldl_cons, ih]
      apply List.ext_getElem?
      intro other
      rw [List.getElem?_map, List.getElem?_map, List.getElem?_modify]
      cases items[other]? with
      | none => rfl
      | some item =>
          by_cases here : index = other
          · simp [here, keeps]
          · simp [here]

omit [AddCommMonoid M] in
/-- What a change in place keeps still holds of every item. -/
theorem forall_mem_foldl_modify {holds : α → Prop} (change : α → α)
    (keeps : ∀ item, holds item → holds (change item)) (indices : List ℕ)
    (before : ∀ item ∈ items, holds item) :
    ∀ item ∈ indices.foldl (fun items index => items.modify index change) items, holds item := by
  induction indices generalizing items with
  | nil => exact before
  | cons index rest ih =>
      refine ih fun item member => ?_
      obtain ⟨place, found⟩ := List.mem_iff_getElem?.mp member
      rw [List.getElem?_modify, Option.map_eq_map, Option.map_eq_some_iff] at found
      obtain ⟨old, stored, rfl⟩ := found
      have kept := before old (List.mem_of_getElem? stored)
      split
      · exact keeps old kept
      · exact kept

omit [AddCommMonoid M] in
theorem getElem?_foldl_modify (change : α → α) {indices : List ℕ} (distinct : indices.Nodup)
    (items : List α) (index : ℕ) :
    (indices.foldl (fun items index => items.modify index change) items)[index]? =
      if index ∈ indices then (items[index]?).map change else items[index]? := by
  induction indices generalizing items with
  | nil => simp
  | cons head rest ih =>
      obtain ⟨absent, later⟩ := List.nodup_cons.mp distinct
      rw [List.foldl_cons, ih later, List.getElem?_modify]
      by_cases here : head = index
      · subst here
        simp [absent]
      · simp [here, Ne.symm here]

end Modify

end PlantManager.Mapping

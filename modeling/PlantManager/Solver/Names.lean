import PlantManager.Solver.Problem

/-! # Dictionaries from names to numbers

The solvers number people and centers by dictionaries built from lists of names.
`Solver.indexByName` is the lookup in such a dictionary, and
`Solver.nodeOf` the lookup that raises on a missing name.
-/

namespace PlantManager.Solver

/-- The index stored for a name in a dictionary built from a list of names: the
last one where the name occurs. -/
def indexByName : List String → String → Option ℕ
  | [], _ => none
  | head :: rest, name =>
      match indexByName rest name with
      | some index => some (index + 1)
      | none => if head = name then some 0 else none

variable {names : List String}

variable {name : String}

theorem getElem?_of_indexByName {index : ℕ} (found : indexByName names name = some index) :
    names[index]? = some name := by
  induction names generalizing index with
  | nil => simp [indexByName] at found
  | cons head rest ih =>
      rw [indexByName] at found
      cases later : indexByName rest name with
      | some position =>
          rw [later] at found
          obtain rfl := Option.some.inj found
          exact ih later
      | none =>
          rw [later] at found
          by_cases here : head = name
          · rw [if_pos here] at found
            obtain rfl := Option.some.inj found
            exact congrArg some here
          · rw [if_neg here] at found
            exact absurd found (by simp)

theorem indexByName_eq_none : indexByName names name = none ↔ name ∉ names := by
  induction names with
  | nil => simp [indexByName]
  | cons head rest ih =>
      rw [indexByName]
      cases later : indexByName rest name with
      | some position =>
          have member := List.mem_of_getElem? (getElem?_of_indexByName later)
          simp [member]
      | none =>
          have absent := ih.mp later
          by_cases here : head = name
          · simp [here]
          · simp [here, absent, Ne.symm here]

theorem exists_indexByName (member : name ∈ names) :
    ∃ index, indexByName names name = some index ∧ index < names.length := by
  cases found : indexByName names name with
  | none => exact absurd member (indexByName_eq_none.mp found)
  | some index =>
      exact ⟨index, rfl, (List.getElem?_eq_some_iff.mp (getElem?_of_indexByName found)).1⟩

/-- The node of a name in a dictionary of nodes numbered from an offset. -/
def nodeOf (offset : ℕ) (names : List String) (name : String) : Except Failure ℕ :=
  match indexByName names name with
  | some index => .ok (offset + index)
  | none => .error (.keyError name)

theorem mapM_ok {α β ε : Type*} {items : List α} {step : α → Except ε β} (result : α → β)
    (each : ∀ item ∈ items, step item = .ok (result item)) :
    items.mapM step = .ok (items.map result) := by
  induction items with
  | nil => rfl
  | cons item rest ih =>
      have tail := ih fun other member => each other (List.mem_cons_of_mem _ member)
      rw [List.mapM_cons, each item List.mem_cons_self]
      rw [tail]
      rfl

theorem indexByName_getElem (distinct : names.Nodup) {index : ℕ} (bound : index < names.length) :
    indexByName names names[index] = some index := by
  obtain ⟨found, same, below⟩ := exists_indexByName (List.getElem_mem bound)
  have there := getElem?_of_indexByName same
  rw [List.getElem?_eq_getElem below] at there
  rw [same, distinct.getElem_inj_iff.mp (Option.some.inj there)]

theorem nodeOf_ok {offset : ℕ} (member : name ∈ names) :
    nodeOf offset names name = .ok (offset + (indexByName names name).getD 0) := by
  obtain ⟨index, found, -⟩ := exists_indexByName member
  simp [nodeOf, found]

/-- The nodes of distinct names, in order. -/
theorem mapM_nodeOf (distinct : names.Nodup) (offset : ℕ) {β : Type} (toArc : ℕ → β) :
    (names.mapM fun name => do
      let node ← nodeOf offset names name
      pure (toArc node)) = .ok ((List.range names.length).map fun index => toArc (offset + index)) := by
  rw [mapM_ok fun name => toArc (offset + (indexByName names name).getD 0)]
  · congr 1
    apply List.ext_getElem
    · simp
    · intro index below _
      simp [indexByName_getElem distinct (by simpa using below)]
  · intro name member
    rw [nodeOf_ok member]
    rfl

/-- Counting by the index of a name counts the name. -/
theorem countP_indexByName {α : Type*} (distinct : names.Nodup) {chosen : List α}
    {name : α → String} (known : ∀ item ∈ chosen, name item ∈ names) {index : ℕ}
    (bound : index < names.length) :
    chosen.countP (fun item => (indexByName names (name item)).getD 0 = index) =
      chosen.countP fun item => name item = names[index] := by
  refine List.countP_congr fun item member => ?_
  obtain ⟨position, found, inside⟩ := exists_indexByName (known item member)
  rw [decide_eq_true_eq, decide_eq_true_eq, found, Option.getD_some]
  have there := getElem?_of_indexByName found
  rw [List.getElem?_eq_getElem inside] at there
  rw [← Option.some.inj there, distinct.getElem_inj_iff]

/-- Counting by index limits every index to one exactly when the names are distinct. -/
theorem nodup_map_iff_countP {α : Type*} {chosen : List α} {name : α → String}
    (known : ∀ item ∈ chosen, name item ∈ names) :
    (∀ index < names.length,
        chosen.countP (fun item => (indexByName names (name item)).getD 0 = index) ≤ 1) ↔
      (chosen.map name).Nodup := by
  rw [List.nodup_iff_count_le_one]
  have counts : ∀ other, (chosen.map name).count other =
      chosen.countP fun item => name item = other := by
    intro other
    rw [List.count, List.countP_map]
    exact List.countP_congr fun item _ => by simp
  constructor
  · intro limited other
    rw [counts]
    by_cases listed : other ∈ names
    · obtain ⟨index, found, below⟩ := exists_indexByName listed
      refine le_trans (List.countP_mono_left fun item _ same => ?_) (limited index below)
      rw [of_decide_eq_true same, found]
      exact decide_eq_true rfl
    · rw [List.countP_eq_zero.mpr]
      · exact Nat.zero_le 1
      · intro item member same
        exact listed (of_decide_eq_true same ▸ known item member)
  · intro limited index below
    refine le_trans (List.countP_mono_left fun item member same => ?_)
      (counts names[index] ▸ limited names[index])
    obtain ⟨position, found, inside⟩ := exists_indexByName (known item member)
    rw [found, Option.getD_some] at same
    obtain rfl := of_decide_eq_true same
    have there := getElem?_of_indexByName found
    rw [List.getElem?_eq_getElem below] at there
    exact decide_eq_true (Option.some.inj there).symm

end PlantManager.Solver

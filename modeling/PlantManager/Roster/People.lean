import PlantManager.Attendance.TimelineRange
import PlantManager.Roster.Labels
import PlantManager.Transition.Runs

/-! # The roster sync

A sync reads the active employees of Odoo and the status of all employees, checks both answers
(`Roster.employeeSnapshotError`), and writes the labels into the table of people, row
by row and in one transaction (`Roster.sync`). No two people have the same name or the
same Odoo id; a write that would break this ends the transaction.
-/

namespace PlantManager.Roster

open Transition

/-! ## What Odoo answers -/

/-- An active employee as Odoo sent it. A value of another type is missing. -/
structure EmployeePayload (δ : Type) where
  id : Option ℤ
  name : Option String
  active : Option Bool
  /-- What the sync copies besides. -/
  details : δ

structure StatusPayload where
  id : Option ℤ
  active : Option Bool

structure Employee (δ : Type) where
  id : ℤ
  name : String
  details : δ

def stripped (value : String) : String := String.ofList (Attendance.Projection.strip value.toList)

variable {δ ρ α : Type}

def readEmployee (payload : EmployeePayload δ) : Option (ℤ × Employee δ) :=
  match payload.id, payload.name, payload.active with
  | some id, some name, some true =>
      if id ≤ 0 ∨ stripped name = "" then none else some (id, ⟨id, name, payload.details⟩)
  | _, _, _ => none

def readStatus (payload : StatusPayload) : Option (ℤ × Bool) :=
  match payload.id, payload.active with
  | some id, some active => if id ≤ 0 then none else some (id, active)
  | _, _ => none

/-- The rows that can be read, by their ids, and how many are malformed or repeat an id. A row
that is not a dictionary is missing. -/
def collect (read : ρ → Option (ℤ × α)) :
    List (Option ρ) → List (ℤ × α) → List (ℤ × α) × ℕ
  | [], kept => (kept, 0)
  | row :: rest, kept =>
      match row.bind read with
      | none => ((collect read rest kept).1, (collect read rest kept).2 + 1)
      | some entry =>
          if entry.1 ∈ kept.map Prod.fst then
            ((collect read rest kept).1, (collect read rest kept).2 + 1)
          else collect read rest (kept ++ [entry])

/-- What a sync fetches. An answer that is not a list is missing. -/
structure Snapshot (δ : Type) where
  employees : Option (List (Option (EmployeePayload δ)))
  statuses : Option (List (Option StatusPayload))
  pulledAt : ℤ

/-- What is wrong with the rows of two answers. -/
def rowsError (activeRows : List (Option (EmployeePayload δ)))
    (statusRows : List (Option StatusPayload)) : Option (String × ℕ) :=
  let (activeById, invalidActive) := collect readEmployee activeRows []
  let (statusById, invalidStatus) := collect readStatus statusRows []
  let contradicted := (activeById.filter fun entry =>
    statusById.lookup entry.1 ≠ some true).length
  if activeRows.isEmpty then
    some ("Odoo active employee payload was empty; sync skipped.", 0)
  else if invalidActive ≠ 0 then
    some (s!"Odoo active employee payload contained {invalidActive} malformed or duplicate " ++
      "record(s); sync skipped.", invalidActive)
  else if invalidStatus ≠ 0 then
    some (s!"Odoo employee status payload contained {invalidStatus} malformed or duplicate " ++
      "record(s); sync skipped.", invalidStatus)
  else if contradicted ≠ 0 then
    some (s!"Odoo employee status payload contradicted or omitted {contradicted} active " ++
      "employee(s); sync skipped.", contradicted)
  else none

def employeeSnapshotError (snapshot : Snapshot δ) : Option (String × ℕ) :=
  match snapshot.employees, snapshot.statuses with
  | some activeRows, some statusRows => rowsError activeRows statusRows
  | _, _ => some ("Odoo employee payload was malformed; sync skipped.", 1)

/-- The active employees in the order in which Odoo sent them. -/
def Snapshot.roster (snapshot : Snapshot δ) : List (Employee δ) :=
  (snapshot.employees.getD []).filterMap fun row => (row.bind readEmployee).map Prod.snd

def Snapshot.statusOf (snapshot : Snapshot δ) : List (ℤ × Bool) :=
  (snapshot.statuses.getD []).filterMap fun row => row.bind readStatus

/-- The employees that are archived. -/
def Snapshot.inactiveIds (snapshot : Snapshot δ) : List ℤ :=
  (snapshot.statusOf.filter fun status => !status.2).map Prod.fst

def Snapshot.named (snapshot : Snapshot δ) : Named :=
  snapshot.roster.map fun employee => (employee.id, words employee.name.toList)

/-- The label of an employee. -/
def Snapshot.label (casefold : List Char → List Char) (snapshot : Snapshot δ)
    (employeeId : ℤ) : String :=
  String.ofList (((rosterLabels casefold snapshot.named).lookup employeeId).getD [])

/-! ## The table -/

/-- A row of `people`. -/
structure Person (δ : Type) where
  odooId : Option ℤ
  name : String
  fullName : String
  active : Bool
  reserve : Bool
  excluded : Bool
  localDirty : Bool
  lastPulledAt : Option ℤ
  details : δ

/-- Two people differ in both keys of the table. -/
def Person.Apart (first second : Person δ) : Prop :=
  first.name ≠ second.name ∧ ∀ id, first.odooId = some id → second.odooId ≠ some id

/-- The people with their unique keys. -/
structure People (δ : Type) where
  rows : List (Person δ)
  distinct : rows.Pairwise Person.Apart

instance : EmptyCollection (People δ) := ⟨⟨[], .nil⟩⟩

def Person.refresh (person : Person δ) (employee : Employee δ) (label : String) (pulledAt : ℤ) :
    Person δ :=
  { person with
    name := label
    fullName := stripped employee.name
    active := true
    lastPulledAt := some pulledAt
    details := employee.details }

def newPerson (employee : Employee δ) (label : String) (pulledAt : ℤ) : Person δ :=
  { odooId := some employee.id
    name := label
    fullName := stripped employee.name
    active := true
    reserve := false
    excluded := false
    localDirty := false
    lastPulledAt := some pulledAt
    details := employee.details }

/-- Somebody else has the name. -/
def People.Taken (people : People δ) (id : ℤ) (name : String) : Prop :=
  ∃ other ∈ people.rows, other.name = name ∧ other.odooId ≠ some id

instance (people : People δ) (id : ℤ) (name : String) : Decidable (people.Taken id name) :=
  inferInstanceAs (Decidable (∃ other ∈ people.rows, _))

def People.Known (people : People δ) (id : ℤ) : Prop := ∃ person ∈ people.rows, person.odooId = some id

instance (people : People δ) (id : ℤ) : Decidable (people.Known id) :=
  inferInstanceAs (Decidable (∃ person ∈ people.rows, _))

theorem Person.Apart.symm {first second : Person δ} (apart : first.Apart second) :
    second.Apart first :=
  ⟨apart.1.symm, fun id one two => apart.2 id two one⟩

theorem People.distinct_refresh (people : People δ) {employee : Employee δ} {label : String}
    (free : ¬ people.Taken employee.id label) (pulledAt : ℤ) :
    (people.rows.map fun person => if person.odooId = some employee.id then
      person.refresh employee label pulledAt else person).Pairwise Person.Apart := by
  rw [List.pairwise_map]
  refine people.distinct.imp_of_mem ?_
  intro first second one two apart
  by_cases target : first.odooId = some employee.id
  · have other : second.odooId ≠ some employee.id := apart.2 _ target
    rw [if_pos target, if_neg other]
    exact ⟨fun same => free ⟨second, two, same.symm, other⟩, apart.2⟩
  · rw [if_neg target]
    split
    · next found =>
        exact ⟨fun same => free ⟨first, one, same, target⟩, apart.2⟩
    · exact apart

theorem People.distinct_append (people : People δ) {employee : Employee δ} {label : String}
    (free : ¬ people.Taken employee.id label) (unknown : ¬ people.Known employee.id)
    (pulledAt : ℤ) :
    (people.rows ++ [newPerson employee label pulledAt]).Pairwise Person.Apart := by
  rw [List.pairwise_append]
  refine ⟨people.distinct, List.pairwise_singleton _ _, ?_⟩
  intro person member other last
  rw [List.mem_singleton] at last
  subst last
  have foreign : person.odooId ≠ some employee.id := fun same => unknown ⟨person, member, same⟩
  refine ⟨fun same => free ⟨person, member, same, foreign⟩, ?_⟩
  rintro id here ⟨⟩
  exact foreign here

/-- Insert an employee, or update the row with its Odoo id. -/
def People.upsert (people : People δ) (employee : Employee δ) (label : String) (pulledAt : ℤ) :
    Except String (People δ) :=
  if taken : people.Taken employee.id label then
    .error "duplicate key value violates unique constraint people_name_key"
  else if known : people.Known employee.id then
    .ok ⟨_, people.distinct_refresh taken pulledAt⟩
  else .ok ⟨_, people.distinct_append taken known pulledAt⟩

/-- The loop over the employees. -/
def People.upsertAll (labelOf : ℤ → String) (pulledAt : ℤ) :
    List (Employee δ) → People δ → Except String (People δ)
  | [], people => .ok people
  | employee :: rest, people => do
      let after ← people.upsert employee (labelOf employee.id) pulledAt
      upsertAll labelOf pulledAt rest after

/-- Only an archived status makes a person inactive. -/
def Person.archive (inactiveIds : List ℤ) (pulledAt : ℤ) (person : Person δ) : Person δ :=
  if (∃ id ∈ person.odooId, id ∈ inactiveIds) ∧ person.active then
    { person with active := false, lastPulledAt := some pulledAt }
  else person

theorem Person.archive_keys (inactiveIds : List ℤ) (pulledAt : ℤ) (person : Person δ) :
    (person.archive inactiveIds pulledAt).name = person.name ∧
      (person.archive inactiveIds pulledAt).odooId = person.odooId := by
  unfold Person.archive
  split <;> exact ⟨rfl, rfl⟩

def People.archive (people : People δ) (inactiveIds : List ℤ) (pulledAt : ℤ) : People δ where
  rows := people.rows.map (Person.archive inactiveIds pulledAt)
  distinct := by
    rw [List.pairwise_map]
    refine people.distinct.imp fun {first second} apart => ?_
    unfold Person.Apart
    rw [(first.archive_keys inactiveIds pulledAt).1, (first.archive_keys inactiveIds pulledAt).2,
      (second.archive_keys inactiveIds pulledAt).1, (second.archive_keys inactiveIds pulledAt).2]
    exact apart

/-- The transaction of a sync. -/
def sync (casefold : List Char → List Char) (people : People δ) (snapshot : Snapshot δ) :
    Except String (People δ) :=
  match employeeSnapshotError snapshot with
  | some (error, _) => .error error
  | none => do
      let after ← people.upsertAll (snapshot.label casefold) snapshot.pulledAt snapshot.roster
      return after.archive snapshot.inactiveIds snapshot.pulledAt

/-- A sync that succeeds. -/
def step (casefold : List Char → List Char) (people : People δ) (snapshot : Snapshot δ) :
    Option (People δ) :=
  (sync casefold people snapshot).toOption

/-- The tables that successful syncs reach. -/
def Occurs (casefold : List Char → List Char) : People δ → Prop :=
  Reachable ∅ (step casefold) fun _ _ => True

end PlantManager.Roster

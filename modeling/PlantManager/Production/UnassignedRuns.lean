import PlantManager.Checks.Raise
import PlantManager.Ranking.Sorting
import PlantManager.Timeline.Coalesce

/-! # Runs of samples that nobody is credited with

`Production.unassignedRunsForSamples` groups adjacent positive samples that are not
assigned and lie in one production run. Active intervals that touch are joined first, so only a real
hole in them separates two runs. Moments are from any linear order.
-/

namespace PlantManager.Production

open Checks Ranking Timeline

structure UnassignedRun (T : Type) where
  wcName : String
  start : T
  stop : T
  units : ℚ
  sampleCount : ℕ
  deriving DecidableEq

/-- A timestamp and its units. -/
abbrev Sample (T : Type) := T × ℚ

variable {T : Type} [LinearOrder T]

/-- The active intervals in order, those that touch joined. -/
def normalizedIntervals (activeIntervals : List (T × T)) : Except String (List (T × T)) := do
  activeIntervals.forM fun interval =>
    raiseIf (interval.2 ≤ interval.1) "active intervals must have positive duration"
  let ordered := sortBy (fun interval => (toLex interval : T ×ₗ T)) activeIntervals
  raiseIf ((ordered.zip ordered.tail).any fun pair => pair.2.1 < pair.1.2)
    "active intervals cannot overlap"
  return coalesce ordered

def checkSamples (samples : List (Sample T)) : Except String Unit := do
  samples.forM fun sample => raiseIf (sample.2 ≤ 0) "sample units must be positive"
  raiseIf ((samples.zip samples.tail).any fun pair => pair.2.1 < pair.1.1)
    "samples must be ordered by timestamp"

/-- The runs so far, and the one that has begun. -/
structure Scan (T : Type) where
  runs : List (UnassignedRun T)
  currentStart : Option T
  currentEnd : Option T
  currentUnits : ℚ
  currentCount : ℕ
  currentInterval : Option ℕ

def Scan.initial : Scan T := ⟨[], none, none, 0, 0, none⟩

def Scan.finish (wcName : String) (scan : Scan T) : Scan T :=
  let runs := match scan.currentStart, scan.currentEnd with
    | some start, some stop =>
        scan.runs ++ [⟨wcName, start, stop, scan.currentUnits, scan.currentCount⟩]
    | _, _ => scan.runs
  ⟨runs, none, none, 0, 0, none⟩

/-- The interval of a sample that nobody is credited with. -/
def place (assigned : Finset T) (intervals : List (T × T)) (sample : Sample T) : Option ℕ :=
  if sample.1 ∈ assigned then none else intervalIndex intervals sample.1

def scanSample (wcName : String) (assigned : Finset T) (intervals : List (T × T)) (scan : Scan T)
    (sample : Sample T) : Scan T :=
  match place assigned intervals sample with
  | none => scan.finish wcName
  | some index =>
      let scan := if scan.currentStart.isSome ∧ some index ≠ scan.currentInterval then
        scan.finish wcName else scan
      let scan := if scan.currentStart = none then
        { scan with currentStart := some sample.1, currentInterval := some index } else scan
      { scan with
        currentEnd := some sample.1
        currentUnits := scan.currentUnits + sample.2
        currentCount := scan.currentCount + 1 }

def unassignedRunsForSamples (samples : List (Sample T)) (assignedSampleTimes : Finset T)
    (activeIntervals : List (T × T)) (wcName : String) : Except String (List (UnassignedRun T)) := do
  let intervals ← normalizedIntervals activeIntervals
  checkSamples samples
  return ((samples.foldl (scanSample wcName assignedSampleTimes intervals) Scan.initial).finish
    wcName).runs

end PlantManager.Production

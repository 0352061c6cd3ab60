import PlantManager.Production.Credit

/-! # Display scores

`Production.coalesceDisplayScores` joins the stints of a person at one station where
only an ignored break lies between them. Each stint is compared with the latest merged stint of the
same person, so other workers in between do not matter. Amounts are rationals.
-/

namespace PlantManager.Production

open Mapping Ranking

inductive SegmentResult where
  | ahead
  | behind
  | neutral
  deriving DecidableEq, Repr

structure SegmentScore (T : Type) where
  segmentId : ℤ
  wcName : String
  personName : Option String
  start : Option T
  stop : Option T
  source : String
  productiveMinutes : ℚ
  actualUnits : ℚ
  goalUnits : ℚ
  runwayUnits : ℚ
  isActive : Bool
  result : SegmentResult
  personOdooId : Option ℤ
  unitPoints : List (CreditedUnitPoint T)
  deriving DecidableEq

def segmentResult (personName : Option String) (actualUnits goalUnits : ℚ) : SegmentResult :=
  if personName = none ∨ goalUnits ≤ 0 then .neutral
  else if goalUnits ≤ actualUnits then .ahead
  else .behind

variable {T : Type} [LinearOrder T]

/-- Rows without a start come last. -/
def startOrTop (start : Option T) : WithTop T := start

def scoreOrder (row : SegmentScore T) : WithTop T ×ₗ ℤ := toLex (startOrTop row.start, row.segmentId)

def GapIsIgnored (start stop : T) (ignoredGaps : List (T × T)) : Prop :=
  stop ≤ start ∨ ∃ gap ∈ ignoredGaps, gap.1 ≤ start ∧ stop ≤ gap.2

instance (start stop : T) (ignoredGaps : List (T × T)) :
    Decidable (GapIsIgnored start stop ignoredGaps) :=
  inferInstanceAs (Decidable (_ ∨ _))

/-- The gap between the end of one row and the start of another is ignored. -/
def gapBetween (ignoredGaps : List (T × T)) (left right : SegmentScore T) : Bool :=
  match left.stop, right.start with
  | some stop, some start => decide (GapIsIgnored stop start ignoredGaps)
  | _, _ => false

def canJoinDisplayScores (ignoredGaps : List (T × T)) (left right : SegmentScore T) : Bool :=
  left.personName.isSome && decide (left.personName = right.personName) &&
    decide (left.personOdooId = right.personOdooId) && decide (left.wcName = right.wcName) &&
    gapBetween ignoredGaps left right

/-- The smaller of the values that there are, or the larger with `max`. -/
def chooseSome (choose : T → T → T) (left right : Option T) : Option T :=
  match left, right with
  | some first, some second => some (choose first second)
  | some first, none => some first
  | none, second => second

def joinDisplayScores (left right : SegmentScore T) : SegmentScore T :=
  let actual := left.actualUnits + right.actualUnits
  let goal := left.goalUnits + right.goalUnits
  { segmentId := min left.segmentId right.segmentId
    wcName := left.wcName
    personName := left.personName
    start := chooseSome min left.start right.start
    stop := chooseSome max left.stop right.stop
    source := if left.source = right.source then left.source else "mixed"
    productiveMinutes := left.productiveMinutes + right.productiveMinutes
    actualUnits := actual
    goalUnits := goal
    runwayUnits := max actual goal
    isActive := left.isActive || right.isActive
    result := segmentResult left.personName actual goal
    personOdooId := left.personOdooId
    unitPoints := sortBy CreditedUnitPoint.atUtc (left.unitPoints ++ right.unitPoints) }

/-- A person by name and Odoo id. -/
abbrev ScoreKey := Option String × Option ℤ

def scoreKey (row : SegmentScore T) : ScoreKey := (row.personName, row.personOdooId)

/-- The merged stints, and where the latest one of each person is. -/
structure Merging (T : Type) where
  merged : List (SegmentScore T)
  latestByPerson : Dictionary ScoreKey ℕ

/-- The latest merged stint of a person with one more stint, where they can be joined. -/
def joinedLatest (ignoredGaps : List (T × T)) (state : Merging T) (score : SegmentScore T) :
    Option (ℕ × SegmentScore T) :=
  (state.latestByPerson.get (scoreKey score)).bind fun latest =>
    (state.merged[latest]?).bind fun row =>
      if canJoinDisplayScores ignoredGaps row score then some (latest, joinDisplayScores row score)
      else none

def mergeScore (ignoredGaps : List (T × T)) (state : Merging T) (score : SegmentScore T) :
    Merging T :=
  match joinedLatest ignoredGaps state score with
  | some (latest, joined) => { state with merged := state.merged.set latest joined }
  | none =>
      { merged := state.merged ++ [score]
        latestByPerson := state.latestByPerson.alter (scoreKey score) fun _ => state.merged.length }

def mergeScores (ignoredGaps : List (T × T)) (named : List (SegmentScore T)) : Merging T :=
  named.foldl (mergeScore ignoredGaps) ⟨[], ∅⟩

/-- The rows of people, and those of nobody. -/
def namedOf (scores : List (SegmentScore T)) : List (SegmentScore T) :=
  scores.filter fun score => score.personName.isSome

def unassignedOf (scores : List (SegmentScore T)) : List (SegmentScore T) :=
  scores.filter fun score => score.personName.isNone

def coalesceDisplayScores (ignoredGaps : List (T × T)) (scores : List (SegmentScore T)) :
    List (SegmentScore T) :=
  let named := sortBy scoreOrder (namedOf scores)
  sortBy scoreOrder ((mergeScores ignoredGaps named).merged ++ unassignedOf scores)

end PlantManager.Production

import PlantManager.Mapping.Dictionary
import PlantManager.Ranking.Sorting

/-! # Crediting produced units to work segments

`Production.creditWorkSegments` splits each sample of a work center among the
people working there, keeps what nobody covers in an unassigned row, and spreads a total
that the samples do not reach over the productive minutes. Units are rationals.
-/

namespace PlantManager.Production

open PlantManager.Mapping PlantManager.Ranking

/-- A stretch of work of one person at one work center. -/
structure WorkSegment (T : Type*) where
  wcName : String
  personName : String
  start : T
  stop : T
  source : String
  personOdooId : Option ℤ
  deriving DecidableEq

/-- Who gets the credit: a durable identity, or a name for legacy credit. -/
inductive PersonAttributionKey
  | name (personName : String)
  | identified (odooId : ℤ) (personName : String)
  deriving DecidableEq

def attributionKeyOf (personOdooId : Option ℤ) (personName : String) : PersonAttributionKey :=
  match personOdooId with
  | none => .name personName
  | some odooId => .identified odooId personName

structure CreditedUnitPoint (T : Type*) where
  atUtc : T
  units : ℚ
  deriving DecidableEq

structure SegmentCredit (T : Type*) where
  segmentId : ℕ
  wcName : String
  personName : Option String
  start : Option T
  stop : Option T
  source : String
  productiveMinutes : ℚ
  actualUnits : ℚ
  isActive : Bool
  personOdooId : Option ℤ
  unitPoints : List (CreditedUnitPoint T)
  deriving DecidableEq

/-- The key of a named credit; an unassigned credit has none. -/
def SegmentCredit.attributionKey {T : Type*} (credit : SegmentCredit T) :
    Option PersonAttributionKey :=
  credit.personName.map (attributionKeyOf credit.personOdooId)

namespace WorkSegment

variable {T : Type*}

def attributionKey (segment : WorkSegment T) : PersonAttributionKey :=
  attributionKeyOf segment.personOdooId segment.personName

variable [LinearOrder T]

def Covers (segment : WorkSegment T) (moment : T) : Prop :=
  segment.start ≤ moment ∧ moment < segment.stop

instance (segment : WorkSegment T) (moment : T) : Decidable (segment.Covers moment) :=
  inferInstanceAs (Decidable (_ ∧ _))

end WorkSegment

/-- The row of a segment while units are credited to it. -/
structure WorkerRow (T : Type*) where
  segmentId : ℕ
  segment : WorkSegment T
  productiveMinutes : ℚ
  actualUnits : ℚ
  isActive : Bool
  unitPoints : List (CreditedUnitPoint T)

namespace WorkerRow

variable {T : Type*}

def addPoint (moment : T) (share : ℚ) (row : WorkerRow T) : WorkerRow T :=
  { row with
    actualUnits := row.actualUnits + share
    unitPoints := row.unitPoints ++ [⟨moment, share⟩] }

/-- The part of a remainder that goes with the productive minutes of a row. -/
def addRemainder (remaining totalMinutes : ℚ) (row : WorkerRow T) : WorkerRow T :=
  { row with
    actualUnits := row.actualUnits + remaining * row.productiveMinutes / totalMinutes }

def credit (row : WorkerRow T) : SegmentCredit T where
  segmentId := row.segmentId
  wcName := row.segment.wcName
  personName := some row.segment.personName
  start := some row.segment.start
  stop := some row.segment.stop
  source := row.segment.source
  productiveMinutes := row.productiveMinutes
  actualUnits := row.actualUnits
  isActive := row.isActive
  personOdooId := row.segment.personOdooId
  unitPoints := row.unitPoints

end WorkerRow

/-- Units that nobody at the center is credited with. -/
structure Bucket (T : Type*) where
  actualUnits : ℚ
  start : Option T
  stop : Option T

namespace Bucket

variable {T : Type*} [LinearOrder T]

def addSample (moment : T) (units : ℚ) (bucket : Option (Bucket T)) : Bucket T :=
  let bucket := bucket.getD { actualUnits := 0, start := some moment, stop := some moment }
  { actualUnits := bucket.actualUnits + units
    start := bucket.start.map (min · moment)
    stop := bucket.stop.map (max · moment) }

def addRemainder (remaining : ℚ) (bucket : Option (Bucket T)) : Bucket T :=
  let bucket := bucket.getD { actualUnits := 0, start := none, stop := none }
  { bucket with actualUnits := bucket.actualUnits + remaining }

def credit (segmentId : ℕ) (wcName : String) (bucket : Bucket T) : SegmentCredit T where
  segmentId := segmentId
  wcName := wcName
  personName := none
  start := bucket.start
  stop := bucket.stop
  source := "unassigned"
  productiveMinutes := 0
  actualUnits := bucket.actualUnits
  isActive := false
  personOdooId := none
  unitPoints := []

end Bucket

section Crediting

variable {T : Type*} [LinearOrder T]

def orderedSegments (segments : List (WorkSegment T)) : List (WorkSegment T) :=
  sortBy (fun segment =>
    toLex (segment.start, toLex (segment.stop, toLex (segment.wcName, segment.personName)))) segments

/-- The rows, the sampled units of each center and the units without a worker. -/
structure Crediting (T : Type*) where
  rows : List (WorkerRow T)
  sampledUnits : Dictionary String ℚ
  unassigned : Dictionary String (Bucket T)

def workerRow (minutes : WorkSegment T → ℚ) (liveCap : Option T) (segmentId : ℕ)
    (segment : WorkSegment T) : WorkerRow T where
  segmentId := segmentId
  segment := segment
  productiveMinutes := max 0 (minutes segment)
  actualUnits := 0
  isActive := liveCap = some segment.stop
  unitPoints := []

/-- The positions of the rows of a center. -/
def indicesByWc (rows : List (WorkerRow T)) (wcName : String) : List ℕ :=
  (List.range rows.length).filter fun index =>
    (rows[index]?).any fun row => row.segment.wcName = wcName

/-- Keep the position of a row at work for its identity, unless one is kept already. -/
def noteActive (rows : List (WorkerRow T)) (moment : T)
    (active : Dictionary PersonAttributionKey ℕ) (index : ℕ) : Dictionary PersonAttributionKey ℕ :=
  match rows[index]? with
  | none => active
  | some row =>
      if row.segment.Covers moment then active.setDefault row.segment.attributionKey index
      else active

/-- The first row of each identity at work at a moment. -/
def activeByPerson (rows : List (WorkerRow T)) (wcName : String) (moment : T) :
    Dictionary PersonAttributionKey ℕ :=
  (indicesByWc rows wcName).foldl (noteActive rows moment) ∅

/-- A moment at or after the live cap. -/
def BeyondCap (liveCap : Option T) (moment : T) : Prop := ∃ cap ∈ liveCap, cap ≤ moment

instance (liveCap : Option T) (moment : T) : Decidable (BeyondCap liveCap moment) :=
  match liveCap with
  | none => isFalse fun ⟨_, member, _⟩ => nomatch member
  | some cap => decidable_of_iff (cap ≤ moment)
      ⟨fun reached => ⟨cap, rfl, reached⟩, fun ⟨_, member, reached⟩ =>
        Option.some.inj member ▸ reached⟩

def creditSample (liveCap : Option T) (wcName : String) (state : Crediting T)
    (sample : T × Option ℚ) : Crediting T :=
  let moment := sample.1
  let units := sample.2.getD 0
  if units ≤ 0 then state
  else
    let state := { state with
      sampledUnits := state.sampledUnits.alter wcName fun sampled => sampled.getD 0 + units }
    if BeyondCap liveCap moment then state
    else
      let active := (activeByPerson state.rows wcName moment).values
      if active ≠ [] then
        { state with
          rows := active.foldl
            (fun rows index => rows.modify index (WorkerRow.addPoint moment (units / active.length)))
            state.rows }
      else
        { state with
          unassigned := state.unassigned.alter wcName (Bucket.addSample moment units) }

def creditSamples (liveCap : Option T) (state : Crediting T)
    (entry : String × List (T × Option ℚ)) : Crediting T :=
  (sortBy Prod.fst entry.2).foldl (creditSample liveCap entry.1) state

/-- Credit the part of a total that the samples do not reach. -/
def creditTotal (state : Crediting T) (entry : String × Option ℚ) : Crediting T :=
  let wcName := entry.1
  let remaining := max 0 (entry.2.getD 0 - (state.sampledUnits.get wcName).getD 0)
  if remaining ≤ 0 then state
  else
    let minutesAt := fun index => (state.rows[index]?).elim 0 WorkerRow.productiveMinutes
    let eligible := (indicesByWc state.rows wcName).filter fun index => 0 < minutesAt index
    let totalMinutes := (eligible.map minutesAt).sum
    if 0 < totalMinutes then
      { state with
        rows := eligible.foldl
          (fun rows index => rows.modify index (WorkerRow.addRemainder remaining totalMinutes))
          state.rows }
    else
      { state with unassigned := state.unassigned.alter wcName (Bucket.addRemainder remaining) }

/-- The rows of the workers, followed by the unassigned ones. -/
def creditRows (state : Crediting T) : List (SegmentCredit T) :=
  state.rows.map WorkerRow.credit ++
    state.unassigned.entries.mapIdx fun offset entry =>
      entry.2.credit (state.rows.length + offset) entry.1

/-- Rows with a start come first, in the order of their starts. -/
def creditOrder (credit : SegmentCredit T) : Bool ×ₗ WithTop T ×ₗ ℕ :=
  toLex (credit.start.isNone, toLex (credit.start.elim ⊤ (fun start => start), credit.segmentId))

/-- What the crediting functions are called with. -/
structure CreditInput (T : Type*) where
  segments : List (WorkSegment T)
  wcTotals : Dictionary String (Option ℚ)
  samplesByWc : Dictionary String (List (T × Option ℚ))
  productiveMinutes : String → String → T → T → ℚ
  productiveMinutesForSegment : Option (WorkSegment T → ℚ)
  liveCap : Option T
  allowTotalFallback : Bool

def CreditInput.minutes (input : CreditInput T) (segment : WorkSegment T) : ℚ :=
  match input.productiveMinutesForSegment with
  | some forSegment => forSegment segment
  | none => input.productiveMinutes segment.personName segment.wcName segment.start segment.stop

def initialCrediting (input : CreditInput T) : Crediting T where
  rows := (orderedSegments input.segments).mapIdx (workerRow input.minutes input.liveCap)
  sampledUnits := ∅
  unassigned := ∅

def sampledCrediting (input : CreditInput T) : Crediting T :=
  input.samplesByWc.entries.foldl (creditSamples input.liveCap) (initialCrediting input)

def totaledCrediting (input : CreditInput T) : Crediting T :=
  if input.allowTotalFallback then
    input.wcTotals.entries.foldl creditTotal (sampledCrediting input)
  else sampledCrediting input

/-- Credit samples and total-only fallbacks to individual work segments. -/
def creditWorkSegments (input : CreditInput T) : Dictionary String (List (SegmentCredit T)) :=
  (Dictionary.groupBy SegmentCredit.wcName (creditRows (totaledCrediting input))).mapValues
    (sortBy creditOrder)

end Crediting

end PlantManager.Production

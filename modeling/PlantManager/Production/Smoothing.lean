import PlantManager.Production.Credit

/-! # Smoothing quick punches

Two rules merge the stints of a person: one who left a station and came back to it within
the limit stayed there, and a short first stint without pallets joins the next one.
`Production.smoothQuickPunches` applies them to every person. Instants and the
limit are microseconds.
-/

namespace PlantManager.Production

open PlantManager.Mapping PlantManager.Ranking

/-- Odoo employee ID, or the display name. -/
inductive PersonKey
  | odooId (id : ℤ)
  | displayName (name : String)
  deriving DecidableEq

def personKey (segment : WorkSegment ℤ) : PersonKey :=
  match segment.personOdooId with
  | some id => .odooId id
  | none => .displayName segment.personName

/-- A segment with its place in the input. -/
abbrev Stint := ℕ × WorkSegment ℤ

abbrev Window := ℤ × ℤ

/-- What the rules look at besides the stints of one person. -/
structure SmoothingData where
  productionTimesByWc : Option (Dictionary String (List ℤ))
  segmentsByWc : Dictionary String (List (WorkSegment ℤ))
  meteredWcNames : Option (List String)
  limit : ℤ

namespace SmoothingData

variable (data : SmoothingData)

def InMeteredScope (wcName : String) : Prop := ∀ metered ∈ data.meteredWcNames, wcName ∈ metered

instance (wcName : String) : Decidable (data.InMeteredScope wcName) :=
  inferInstanceAs (Decidable (∀ metered ∈ data.meteredWcNames, wcName ∈ metered))

/-- The segments of the other people at the station of a segment. -/
def others (segment : WorkSegment ℤ) (wcName : String) : List (WorkSegment ℤ) :=
  ((data.segmentsByWc.get wcName).getD []).filter fun other => personKey other ≠ personKey segment

/-- The pallet times of the station during the stint, if they are known. -/
def palletsDuring (segment : WorkSegment ℤ) : Option (List ℤ) :=
  (data.productionTimesByWc.bind fun times => times.get segment.wcName).map fun times =>
    times.filter segment.Covers

def StationWasIdle (segment : WorkSegment ℤ) : Prop := data.palletsDuring segment = some []

instance (segment : WorkSegment ℤ) : Decidable (data.StationWasIdle segment) :=
  inferInstanceAs (Decidable (_ = _))

/-- Some pallet of the stint is covered by nobody else. -/
def HasOrphanedPallets (segment : WorkSegment ℤ) : Prop :=
  ∃ pallet ∈ (data.palletsDuring segment).getD [],
    ¬∃ other ∈ data.others segment segment.wcName, other.Covers pallet

instance (segment : WorkSegment ℤ) : Decidable (data.HasOrphanedPallets segment) :=
  inferInstanceAs (Decidable (∃ pallet ∈ _, ¬∃ other ∈ _, WorkSegment.Covers other pallet))

/-- The open gap between two instants overlaps a blocking window. -/
def CrossesBlocked (left right : ℤ) (blocked : List Window) : Prop :=
  left < right ∧ ∃ window ∈ blocked, window.1 < right ∧ left < window.2

instance (left right : ℤ) (blocked : List Window) : Decidable (CrossesBlocked left right blocked) :=
  inferInstanceAs (Decidable (_ ∧ ∃ window ∈ blocked, _))

/-- Someone else took over the station while the person was away. -/
def WasRelieved (current candidate : WorkSegment ℤ) : Prop :=
  ∃ other ∈ data.others current current.wcName,
    other.start < candidate.start ∧ current.stop < other.stop ∧
      ¬(other.start < current.stop ∧ candidate.start < other.stop)

instance (current candidate : WorkSegment ℤ) : Decidable (data.WasRelieved current candidate) :=
  inferInstanceAs (Decidable (∃ other ∈ data.others current current.wcName, _))

/-- Folding a first pick forward would claim the time of another person. -/
def FirstPickTakesOverSomeone (current following : WorkSegment ℤ) : Prop :=
  ∃ other ∈ data.others current following.wcName,
    other.start < following.start ∧ current.start < other.stop ∧
      ¬(other.start ≤ current.start ∧ following.start < other.stop)

instance (current following : WorkSegment ℤ) :
    Decidable (data.FirstPickTakesOverSomeone current following) :=
  inferInstanceAs (Decidable (∃ other ∈ data.others current following.wcName, _))

/-- Look for the return to a station among the later stints; the detours so far come first. -/
def findReturn (current : WorkSegment ℤ) (blocked : List Window) (between : List Stint) :
    List Stint → Option ℕ
  | [] => none
  | candidate :: later =>
      if data.limit < candidate.2.start - current.stop then none
      else if candidate.2.wcName ≠ current.wcName then
        findReturn current blocked (between ++ [candidate]) later
      else if (∃ stint ∈ between,
          stint.2.start < current.stop ∨ candidate.2.start < stint.2.stop) then none
      else if (∃ stint ∈ between, ¬data.InMeteredScope stint.2.wcName) then none
      else if CrossesBlocked current.stop candidate.2.start blocked then none
      else if data.WasRelieved current candidate.2 then none
      else if (∃ stint ∈ between, data.HasOrphanedPallets stint.2) then none
      else some between.length

theorem findReturn_lt {current : WorkSegment ℤ} {blocked : List Window} {between later : List Stint}
    {detours : ℕ} (found : data.findReturn current blocked between later = some detours) :
    detours < between.length + later.length := by
  induction later generalizing between with
  | nil => cases found
  | cons candidate rest ih =>
      rw [findReturn] at found
      split at found
      · cases found
      · split at found
        · have later := ih found
          rw [List.length_append, List.length_singleton] at later
          rw [List.length_cons]
          omega
        · iterate 5
            split at found
            · cases found
          obtain rfl := Option.some.inj found
          simp

/-- How many stints lie between a stint and the return that it merges with. -/
def cameBackMatch (current : WorkSegment ℤ) (blocked : List Window) (later : List Stint) :
    Option ℕ :=
  if data.InMeteredScope current.wcName then data.findReturn current blocked [] later else none

theorem cameBackMatch_lt {current : WorkSegment ℤ} {blocked : List Window} {later : List Stint}
    {detours : ℕ} (found : data.cameBackMatch current blocked later = some detours) :
    detours < later.length := by
  rw [cameBackMatch] at found
  split at found
  · simpa using data.findReturn_lt found
  · cases found

/-- A stint that lasts until the end of the ones it absorbs. -/
def absorb (current : Stint) (absorbed : List Stint) : Stint :=
  (absorbed.foldl (fun index stint => min index stint.1) current.1,
    { current.2 with
      stop := absorbed.foldl (fun stop stint => max stop stint.2.stop) current.2.stop })

/-- Merge each stint with its return, as long as there is one, and go on with the next. -/
def applyCameBack (blocked : List Window) : List Stint → List Stint
  | [] => []
  | current :: later =>
      match found : data.cameBackMatch current.2 blocked later with
      | none => current :: applyCameBack blocked later
      | some detours =>
          applyCameBack blocked
            (absorb current (later.take (detours + 1)) :: later.drop (detours + 1))
  termination_by stints => stints.length
  decreasing_by
    · simp
    · have inside := data.cameBackMatch_lt found
      simp only [List.length_cons, List.length_drop]
      omega

/-- A short first stint, at an idle station, that the next stint follows within the limit. -/
def IsWrongFirstPick (blocked : List Window) (previousEnd : Option ℤ)
    (current following : WorkSegment ℤ) : Prop :=
  (∀ ended ∈ previousEnd, data.limit < current.start - ended) ∧
    current.stop - current.start ≤ data.limit ∧
    following.wcName ≠ current.wcName ∧
    following.start - current.stop ≤ data.limit ∧
    data.InMeteredScope current.wcName ∧
    data.InMeteredScope following.wcName ∧
    ¬CrossesBlocked current.stop following.start blocked ∧
    data.StationWasIdle current ∧
    ¬data.FirstPickTakesOverSomeone current following

instance (blocked : List Window) (previousEnd : Option ℤ) (current following : WorkSegment ℤ) :
    Decidable (data.IsWrongFirstPick blocked previousEnd current following) :=
  inferInstanceAs (Decidable (_ ∧ _ ∧ _ ∧ _ ∧ _ ∧ _ ∧ ¬_ ∧ _ ∧ ¬_))

/-- The next stint, from the start of the wrong first pick on. -/
def joinNext (current following : Stint) : Stint :=
  (min current.1 following.1,
    { following.2 with
      start := current.2.start
      stop := max current.2.stop following.2.stop })

/-- Join wrong first picks with the next stints; the latest end before the stints is kept. -/
def applyWrongFirstPick (blocked : List Window) (previousEnd : Option ℤ) :
    List Stint → List Stint
  | current :: following :: later =>
      if data.IsWrongFirstPick blocked previousEnd current.2 following.2 then
        applyWrongFirstPick blocked previousEnd (joinNext current following :: later)
      else
        current :: applyWrongFirstPick blocked
          (some (previousEnd.elim current.2.stop (max · current.2.stop))) (following :: later)
  | stints => stints
  termination_by stints => stints.length

end SmoothingData

/-- What the smoothing is called with. -/
structure SmoothingInput where
  segments : List (WorkSegment ℤ)
  blockedWindows : Option (Dictionary PersonKey (List Window))
  productionTimesByWc : Option (Dictionary String (List ℤ))
  meteredWcNames : Option (List String)
  limit : ℤ

namespace SmoothingInput

variable (input : SmoothingInput)

def data : SmoothingData where
  productionTimesByWc := input.productionTimesByWc
  segmentsByWc := Dictionary.groupBy WorkSegment.wcName input.segments
  meteredWcNames := input.meteredWcNames
  limit := input.limit

def stints : List Stint := input.segments.zipIdx.map Prod.swap

def byPerson : Dictionary PersonKey (List Stint) :=
  Dictionary.groupBy (fun stint => personKey stint.2) input.stints

def ordered (stints : List Stint) : List Stint :=
  sortBy (fun stint => toLex (stint.2.start, toLex (stint.2.stop, stint.1))) stints

def blocked (key : PersonKey) : List Window :=
  ((input.blockedWindows.getD ∅).get key).getD []

/-- The smoothed stints of one person. -/
def smoothPerson (entry : PersonKey × List Stint) : List Stint :=
  input.data.applyWrongFirstPick (input.blocked entry.1) none
    (input.data.applyCameBack (input.blocked entry.1) (ordered entry.2))

end SmoothingInput

/-- The segments with each person's quick punch mistakes merged away. -/
def smoothQuickPunches (input : SmoothingInput) : List (WorkSegment ℤ) :=
  (sortBy Prod.fst (input.byPerson.entries.flatMap input.smoothPerson)).map Prod.snd

end PlantManager.Production

import PlantManager.TimeOff.Leaves

/-! # Records of a category

A category is a set of work centers. The best day of a person there is its GOAT, and a day that
beats all others sets a record (`Goat.alertFor`). Days are counted, and units and hours
are rationals.
-/

namespace PlantManager.Goat

open TimeOff (roundHalfEven)

structure Location where
  name : String
  skill : String
  meterId : Option String
  deriving DecidableEq

structure Category where
  key : String
  label : String
  groupName : Option String
  skill : Option String
  minimumDataDays : ℕ
  deriving DecidableEq

def allCategories : List Category :=
  [⟨"repairs", "Repairs", some "Repairs", none, 1⟩,
    ⟨"dismantlers", "Dismantlers", some "Dismantlers", none, 1⟩,
    ⟨"juniors", "Juniors", none, some "Junior", 1⟩,
    ⟨"woodpecker", "Woodpecker", none, some "Woodpecker", 1⟩,
    ⟨"hand_build", "Hand Build", none, some "Hand Build", 30⟩]

/-- The work centers, as they are configured. -/
structure Sites where
  groupMembers : String → List Location
  locations : List Location

def members (sites : Sites) (category : Category) : List Location :=
  match category.groupName with
  | some groupName => sites.groupMembers groupName
  | none => sites.locations.filter fun location => category.skill = some location.skill

def workCenterNames (sites : Sites) (category : Category) : List String :=
  (members sites category).map Location.name

def hasMeteredSource (sites : Sites) (category : Category) : Bool :=
  (members sites category).any fun location => location.meterId.any (· ≠ "")

/-- What a person made at a work center on a day. -/
structure Record where
  day : ℤ
  person : String
  wc : String
  units : ℚ
  hours : ℚ
  deriving DecidableEq

def positiveDataDays (sites : Sites) (category : Category) (records : List Record) : List ℤ :=
  ((records.filter fun record =>
    record.wc ∈ workCenterNames sites category ∧ 0 < record.units).map Record.day).eraseDups

def isGoatReady (sites : Sites) (category : Category) (records : List Record) : Bool :=
  category.minimumDataDays ≤ (positiveDataDays sites category records).length

/-! ## Awards -/

/-- The first day of the awards, 2024-01-01, counted from 1970-01-01. -/
def awardsDataFloor : ℤ := 19723

structure PersonDay where
  name : String
  day : ℤ
  units : ℚ
  hours : ℚ
  deriving DecidableEq

def Record.owner (record : Record) : String × ℤ := (record.person, record.day)

/-- The records of a day of a person, at the work centers. -/
def ownRecords (wcNames : List String) (records : List Record) (owner : String × ℤ) : List Record :=
  records.filter fun record => record.wc ∈ wcNames ∧ record.owner = owner

def personDay (wcNames : List String) (records : List Record) (owner : String × ℤ) : PersonDay where
  name := owner.1
  day := owner.2
  units := ((ownRecords wcNames records owner).map Record.units).sum
  hours := ((ownRecords wcNames records owner).map Record.hours).sum

def personDaysInWcNames (wcNames : List String) (first last : ℤ) (records : List Record) :
    List PersonDay :=
  let raw := records.filter fun record => first ≤ record.day ∧ record.day ≤ last
  let owners := ((raw.filter fun record => record.wc ∈ wcNames).map Record.owner).eraseDups
  (owners.map (personDay wcNames raw)).filter fun row => 0 < row.units

/-- More units come first, then the earlier day, then the name. -/
def PersonDay.key (row : PersonDay) : ℚ ×ₗ ℤ ×ₗ String :=
  toLex (-row.units, toLex (row.day, row.name))

structure BestDay where
  name : String
  day : ℤ
  units : ℚ
  pph : ℚ
  deriving DecidableEq

def bestPersonDay (rows : List PersonDay) : Option BestDay :=
  (rows.insertionSort fun first second => first.key ≤ second.key).head?.map fun top =>
    { name := top.name
      day := top.day
      units := top.units
      pph := if (0 : ℚ) < top.hours then (roundHalfEven (10 * (top.units / top.hours)) : ℚ) / 10 else 0 }

/-! ## The record of a day -/

structure Winner where
  person : String
  wcName : String
  units : ℤ
  deriving DecidableEq

/-- More units come first, then the name of the work center. -/
def Record.key (record : Record) : ℚ ×ₗ String := toLex (-record.units, record.wc)

def winnerForDay (sites : Sites) (category : Category) (day : ℤ) (records : List Record) :
    Option Winner :=
  let wcNames := workCenterNames sites category
  match bestPersonDay (personDaysInWcNames wcNames day day records) with
  | none => none
  | some winner =>
      let contributions := ownRecords wcNames records (winner.name, day)
      (contributions.insertionSort fun first second => first.key ≤ second.key).head?.map
        fun location => ⟨winner.name, location.wc, roundHalfEven winner.units⟩

structure Alert where
  achievedDay : ℤ
  categoryKey : Option String
  groupName : String
  person : String
  wcName : String
  units : ℤ
  priorRecordUnits : Option ℤ
  priorRecordHolder : Option String
  priorRecordDay : Option ℤ
  deriving DecidableEq

/-- The alert of a category for a day, if its best units beat those of every other day. -/
def alertFor (sites : Sites) (day : ℤ) (records : List Record) (category : Category) :
    Option Alert :=
  if isGoatReady sites category records then
    match winnerForDay sites category day records with
    | none => none
    | some winner =>
        let priorRows := (personDaysInWcNames (workCenterNames sites category) awardsDataFloor day
          records).filter fun row => row.day ≠ day
        match bestPersonDay priorRows with
        | none => none
        | some prior =>
            let priorUnits := roundHalfEven prior.units
            if winner.units ≤ priorUnits then none
            else some
              { achievedDay := day
                categoryKey := some category.key
                groupName := category.label
                person := winner.person
                wcName := winner.wcName
                units := winner.units
                priorRecordUnits := some priorUnits
                priorRecordHolder := some prior.name
                priorRecordDay := some prior.day }
  else none

/-! ## A record beats every other day -/

theorem floor_le_roundHalfEven (value : ℚ) : ⌊value⌋ ≤ roundHalfEven value := by
  simp only [roundHalfEven]
  split_ifs <;> omega

theorem roundHalfEven_le (value : ℚ) : roundHalfEven value ≤ ⌊value⌋ + 1 := by
  simp only [roundHalfEven]
  split_ifs <;> omega

theorem roundHalfEven_mono : Monotone roundHalfEven := by
  intro first second le
  rcases (Int.floor_mono le).lt_or_eq with lt | same
  · calc roundHalfEven first ≤ ⌊first⌋ + 1 := roundHalfEven_le first
      _ ≤ ⌊second⌋ := lt
      _ ≤ roundHalfEven second := floor_le_roundHalfEven second
  · -- The values have one floor, and the rest of the second is no less.
    simp only [roundHalfEven, same]
    split_ifs <;> first | omega | (exfalso; linarith)

/-- The best row is one of the rows, and none has more units. -/
theorem bestPersonDay_spec {rows : List PersonDay} {best : BestDay}
    (found : bestPersonDay rows = some best) :
    (∃ row ∈ rows, row.name = best.name ∧ row.day = best.day ∧ row.units = best.units) ∧
      ∀ row ∈ rows, row.units ≤ best.units := by
  obtain ⟨top, head, rfl⟩ := Option.map_eq_some_iff.mp found
  have sorted := List.pairwise_insertionSort
    (fun first second : PersonDay => first.key ≤ second.key) rows
  obtain ⟨rest, sorted_eq⟩ := List.head?_eq_some_iff.mp head
  have mem_iff (row : PersonDay) : row ∈ top :: rest ↔ row ∈ rows := by
    rw [← sorted_eq]
    exact List.mem_insertionSort _
  rw [sorted_eq, List.pairwise_cons] at sorted
  refine ⟨⟨top, (mem_iff top).mp List.mem_cons_self, rfl, rfl, rfl⟩, fun row member => ?_⟩
  rcases List.mem_cons.mp ((mem_iff row).mpr member) with rfl | later
  · exact le_rfl
  · have key := sorted.1 row later
    have units : -top.units ≤ -row.units := (Prod.Lex.le_iff.mp key).elim le_of_lt fun h => h.1.le
    exact neg_le_neg_iff.mp units

variable {records : List Record}

/-- A person without records has no units. -/
theorem exists_record {wcNames : List String} {owner : String × ℤ}
    (units : 0 < (personDay wcNames records owner).units) :
    ∃ record ∈ records, record.wc ∈ wcNames ∧ record.owner = owner := by
  have own : ownRecords wcNames records owner ≠ [] := by
    intro none_
    rw [personDay, none_] at units
    exact absurd units (lt_irrefl 0)
  obtain ⟨record, member⟩ := List.exists_mem_of_ne_nil _ own
  exact ⟨record, by simpa [ownRecords] using member⟩

/-- The rows of a range are the days of people with units. -/
theorem mem_personDaysInWcNames {wcNames : List String} {first last : ℤ} {row : PersonDay} :
    row ∈ personDaysInWcNames wcNames first last records ↔
      (first ≤ row.day ∧ row.day ≤ last) ∧
        personDay wcNames records (row.name, row.day) = row ∧ 0 < row.units := by
  have within {owner : String × ℤ} (range : first ≤ owner.2 ∧ owner.2 ≤ last) :
      personDay wcNames (records.filter fun record => first ≤ record.day ∧ record.day ≤ last)
        owner = personDay wcNames records owner := by
    have own : ownRecords wcNames
        (records.filter fun record => first ≤ record.day ∧ record.day ≤ last) owner =
          ownRecords wcNames records owner := by
      rw [ownRecords, List.filter_filter]
      refine List.filter_congr fun record _ => ?_
      by_cases same : record.owner = owner
      · have day : record.day = owner.2 := congrArg Prod.snd same
        simp [day, range]
      · simp [same]
    rw [personDay, personDay, own]
  simp only [personDaysInWcNames, List.mem_filter, List.mem_map, List.mem_eraseDups,
    decide_eq_true_eq]
  constructor
  · rintro ⟨⟨owner, ⟨record, ⟨⟨-, range⟩, -⟩, rfl⟩, rfl⟩, units⟩
    exact ⟨range, (within range).symm, units⟩
  · rintro ⟨range, same, units⟩
    refine ⟨⟨(row.name, row.day), ?_, (within range).trans same⟩, units⟩
    obtain ⟨record, present, known, owner⟩ := exists_record (same ▸ units)
    have day : record.day = row.day := congrArg Prod.snd owner
    exact ⟨record, ⟨⟨present, day ▸ range⟩, known⟩, owner⟩

/-- The best of a day. -/
def bestOn (wcNames : List String) (records : List Record) (day : ℤ) : Option BestDay :=
  bestPersonDay (personDaysInWcNames wcNames day day records)

/-- The units of an alert are the best of the day, rounded, and more than the best of every other
day up to it. -/
def Alert.Beats (alert : Alert) (wcNames : List String) (records : List Record) : Prop :=
  ∃ best, bestOn wcNames records alert.achievedDay = some best ∧
    alert.units = roundHalfEven best.units ∧
    ∀ other held, other ≤ alert.achievedDay → other ≠ alert.achievedDay →
      bestOn wcNames records other = some held → roundHalfEven held.units < alert.units

theorem winnerForDay_units {sites : Sites} {category : Category} {day : ℤ} {winner : Winner}
    (found : winnerForDay sites category day records = some winner) :
    ∃ best, bestOn (workCenterNames sites category) records day = some best ∧
      winner.units = roundHalfEven best.units := by
  simp only [winnerForDay] at found
  split at found
  · cases found
  · rename_i best held
    obtain ⟨location, -, rfl⟩ := Option.map_eq_some_iff.mp found
    exact ⟨best, held, rfl⟩

theorem alertFor_beats {sites : Sites} {day : ℤ} {category : Category} {alert : Alert}
    (found : alertFor sites day records category = some alert)
    (floor : ∀ record ∈ records, awardsDataFloor ≤ record.day) :
    alert.achievedDay = day ∧ alert.categoryKey = some category.key ∧
      alert.Beats (workCenterNames sites category) records := by
  simp only [alertFor] at found
  split at found
  swap
  · cases found
  split at found
  · cases found
  rename_i winner won
  split at found
  · cases found
  rename_i prior held
  split at found
  · cases found
  rename_i more
  obtain rfl := Option.some.inj found
  obtain ⟨best, best_eq, units⟩ := winnerForDay_units won
  refine ⟨rfl, rfl, best, best_eq, units, fun other best' before apart other_eq => ?_⟩
  obtain ⟨⟨row, member, -, -, row_units⟩, -⟩ := bestPersonDay_spec other_eq
  obtain ⟨⟨after, upTo⟩, own, positive⟩ := mem_personDaysInWcNames.mp member
  have day_eq : row.day = other := le_antisymm upTo after
  have recorded : awardsDataFloor ≤ row.day := by
    obtain ⟨record, present, -, owner⟩ := exists_record (own ▸ positive)
    have same : record.day = row.day := congrArg Prod.snd owner
    exact same ▸ floor record present
  have among : row ∈ (personDaysInWcNames (workCenterNames sites category) awardsDataFloor day
      records).filter fun row => row.day ≠ day :=
    List.mem_filter.mpr ⟨mem_personDaysInWcNames.mpr ⟨⟨recorded, day_eq ▸ before⟩, own, positive⟩,
      by simpa [day_eq] using apart⟩
  have le := (bestPersonDay_spec held).2 row among
  calc roundHalfEven best'.units = roundHalfEven row.units := by rw [row_units]
    _ ≤ roundHalfEven prior.units := roundHalfEven_mono le
    _ < winner.units := not_le.mp more

end PlantManager.Goat

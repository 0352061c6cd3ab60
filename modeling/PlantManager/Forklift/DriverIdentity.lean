import PlantManager.Mapping.Updates
import PlantManager.Roster.People

/-! # Identities of forklift drivers

An external driver is joined to an employee by the configured mapping, or else by the one name it
was observed under (`Forklift.resolveForkliftDriverIds`). No employee gets two drivers
unless the mapping says so, and a join is found again or not at all when another driver or another
person appears, except that a person of just that full name takes the driver from one of that first
name (`Forklift.driver_identities`).
-/

namespace PlantManager.Forklift

open Mapping
open Roster (stripped words)

structure Person where
  name : String
  employeeId : Option ℤ
  active : Bool
  deriving DecidableEq

/-- What the resolution reads besides the observed names. -/
structure Identities where
  roster : List Person
  configured : Dictionary String ℤ
  /-- The name overrides for drivers. -/
  overrides : Dictionary String String
  allowedEmployeeIds : Option (List ℤ)
  casefold : String → String

/-- The names that external drivers were observed under. -/
abbrev Observed := Dictionary String (List (Option String))

namespace Identities

variable (site : Identities)

def Allows (employee : ℤ) : Prop := ∀ allowed ∈ site.allowedEmployeeIds, employee ∈ allowed

instance : DecidablePred site.Allows := fun employee =>
  inferInstanceAs (Decidable (∀ allowed ∈ site.allowedEmployeeIds, employee ∈ allowed))

/-- The employee ID of a person who can be a driver. -/
def eligible (person : Person) : Option (ℤ × Person) :=
  match person.employeeId with
  | some employee =>
      if person.active ∧ site.Allows employee then some (employee, person) else none
  | none => none

def people : List (ℤ × Person) := site.roster.filterMap site.eligible

def fullName (person : Person) : String := stripped person.name

/-- The first word of a text. -/
def firstWord (text : String) : String :=
  String.ofList ((words text.toList).headD [])

/-- The people with a name under the names in question. -/
def byName (name : String → String) : Dictionary String (List (ℤ × Person)) :=
  Dictionary.groupBy (fun person => site.casefold (name (fullName person.2)))
    (site.people.filter fun person => fullName person.2 ≠ "")

def activeAllowedExplicit : Dictionary String ℤ :=
  site.configured.filter fun _ employee =>
    employee ∈ site.people.map Prod.fst ∧ site.Allows employee

def reservedEmployeeIds : List ℤ := site.activeAllowedExplicit.values

/-- The people a name can stand for: those with this full name, or else with this first name. -/
def candidates (target : String) : List (ℤ × Person) :=
  let exact := ((site.byName id).get (site.casefold target)).getD []
  let firstName := if target = "" then "" else site.casefold (firstWord target)
  (if exact = [] then ((site.byName firstWord).get firstName).getD [] else exact).filter
    fun person => person.1 ∉ site.reservedEmployeeIds

def targetName (sourceName : String) : String :=
  stripped ((site.overrides.get sourceName).getD sourceName)

/-- The names of a driver without those that are missing. -/
def namesOf (rawNames : List (Option String)) : List String :=
  ((rawNames.filterMap fun value => value.map stripped).filter fun name => name ≠ "").dedup

/-- The employee that the observed names of a driver stand for. -/
def propose (rawDriverId : String) (rawNames : List (Option String)) : Option (String × ℤ) :=
  let driverId := stripped rawDriverId
  if driverId = "" ∨ driverId ∈ site.configured.keys then none
  else
    match namesOf rawNames with
    | [sourceName] =>
        match site.candidates (site.targetName sourceName) with
        | [person] => some (driverId, person.1)
        | _ => none
    | _ => none

def proposed (names : Observed) : Dictionary String ℤ :=
  Dictionary.ofItems Prod.fst Prod.snd
    (names.entries.filterMap fun entry => site.propose entry.1 entry.2)

def observedDriverIds (names : Observed) : List String :=
  (names.keys.map stripped).filter fun driverId => driverId ≠ ""

def explicit (names : Observed) : Dictionary String ℤ :=
  site.activeAllowedExplicit.filter fun driverId _ => driverId ∈ observedDriverIds names

def inferred (names : Observed) : Dictionary String ℤ :=
  (site.proposed names).filter fun _ employee => (site.proposed names).values.count employee = 1

end Identities

def resolveForkliftDriverIds (site : Identities) (names : Observed) : Dictionary String ℤ :=
  (site.explicit names).update (site.inferred names)

namespace Identities

variable (site : Identities)

/-! ## The claim -/

/-- No two observed IDs are the same but for white space. -/
def DistinctIds (names : Observed) : Prop := (names.keys.map stripped).Nodup

/-- The names that a driver was observed under. -/
def observedNames (names : Observed) (driverId : String) : List String :=
  ((names.entries.filter fun entry => stripped entry.1 = driverId).flatMap
    fun entry => namesOf entry.2).dedup

def HasFullName (target : String) (person : ℤ × Person) : Prop :=
  fullName person.2 ≠ "" ∧ site.casefold (fullName person.2) = site.casefold target

def HasFirstName (target : String) (person : ℤ × Person) : Prop :=
  fullName person.2 ≠ "" ∧ site.casefold (firstWord (fullName person.2)) =
    if target = "" then "" else site.casefold (firstWord target)

/-- A person has the full name, or the first name if nobody has the full name. -/
def Matches (target : String) (person : ℤ × Person) : Prop :=
  site.HasFullName target person ∨
    (∀ other ∈ site.people, ¬site.HasFullName target other) ∧ site.HasFirstName target person

/-- The employee is configured for no driver. -/
def Unreserved (employee : ℤ) : Prop := ∀ driverId, site.configured.get driverId ≠ some employee

/-- Among the people whose employee is not reserved, one alone matches the name. -/
def MatchesOnly (target : String) (employee : ℤ) : Prop :=
  ∃ person ∈ site.people, person.1 = employee ∧ site.Unreserved employee ∧
    site.Matches target person ∧
      ∀ other ∈ site.people, site.Unreserved other.1 → site.Matches target other → other = person

variable {site} {names : Observed} {driverId other target : String} {employee : ℤ}
  {person : ℤ × Person}

/-! ## Candidates -/

theorem eligible_eq_some {listed : Person} (can : site.eligible listed = some person) :
    person.2 = listed ∧ listed.employeeId = some person.1 := by
  unfold eligible at can
  split at can
  · rename_i id hasId
    obtain ⟨-, rfl⟩ := Option.ite_some_none_eq_some.mp can
    exact ⟨rfl, hasId⟩
  · cases can

theorem mem_people : person ∈ site.people ↔
    person.2 ∈ site.roster ∧ person.2.employeeId = some person.1 ∧ person.2.active ∧
      site.Allows person.1 := by
  unfold people
  rw [List.mem_filterMap]
  constructor
  · rintro ⟨listed, member, made⟩
    unfold eligible at made
    split at made
    · rename_i id hasId
      obtain ⟨can, rfl⟩ := Option.ite_some_none_eq_some.mp made
      exact ⟨member, hasId, can⟩
    · cases made
  · rintro ⟨member, hasId, can⟩
    refine ⟨person.2, member, ?_⟩
    unfold eligible
    rw [hasId]
    exact if_pos can

theorem get_activeAllowedExplicit :
    site.activeAllowedExplicit.get driverId = some employee ↔
      site.configured.get driverId = some employee ∧
        employee ∈ site.people.map Prod.fst ∧ site.Allows employee := by
  rw [activeAllowedExplicit, Dictionary.get_filter_eq_some_iff, decide_eq_true_iff]

/-- Of the people, those are reserved whose employee is configured. -/
theorem mem_reserved (member : person ∈ site.people) :
    person.1 ∈ site.reservedEmployeeIds ↔ ¬site.Unreserved person.1 := by
  unfold Unreserved reservedEmployeeIds Dictionary.values
  rw [List.mem_map, not_forall]
  constructor
  · rintro ⟨⟨configured, employee⟩, stored, rfl⟩
    have got := get_activeAllowedExplicit.mp (Dictionary.get_eq_some_iff.mpr stored)
    exact ⟨configured, not_not.mpr got.1⟩
  · rintro ⟨configured, found⟩
    refine ⟨(configured, person.1), Dictionary.get_eq_some_iff.mp ?_, rfl⟩
    exact get_activeAllowedExplicit.mpr
      ⟨not_not.mp found, List.mem_map_of_mem member, (mem_people.mp member).2.2.2⟩

theorem getD_byName (name : String → String) (key : String) :
    ((site.byName name).get key).getD [] = (site.people.filter fun person =>
      fullName person.2 ≠ "").filter fun person =>
        site.casefold (name (fullName person.2)) = key :=
  Dictionary.getD_get_groupBy _ _ _

theorem mem_candidates : person ∈ site.candidates target ↔
    person ∈ site.people ∧ site.Unreserved person.1 ∧ site.Matches target person := by
  have exact_iff : ∀ other, other ∈ ((site.byName id).get (site.casefold target)).getD [] ↔
      other ∈ site.people ∧ site.HasFullName target other := by
    intro other
    rw [getD_byName, List.mem_filter, List.mem_filter, decide_eq_true_iff, decide_eq_true_iff,
      and_assoc]
    rfl
  have first_iff : ∀ other, other ∈ ((site.byName firstWord).get
      (if target = "" then "" else site.casefold (firstWord target))).getD [] ↔
        other ∈ site.people ∧ site.HasFirstName target other := by
    intro other
    rw [getD_byName, List.mem_filter, List.mem_filter, decide_eq_true_iff, decide_eq_true_iff,
      and_assoc]
    rfl
  have free : ∀ other ∈ site.people,
      (decide (other.1 ∉ site.reservedEmployeeIds) = true ↔ site.Unreserved other.1) := by
    intro other member
    rw [decide_eq_true_iff, mem_reserved member, not_not]
  unfold candidates Matches
  rw [List.mem_filter]
  split
  · rename_i nobody
    have nobodyHas : ∀ other ∈ site.people, ¬site.HasFullName target other := by
      intro other member has
      have listed := (exact_iff other).mpr ⟨member, has⟩
      rw [nobody] at listed
      exact List.not_mem_nil listed
    rw [first_iff]
    constructor
    · rintro ⟨⟨member, has⟩, unreserved⟩
      exact ⟨member, (free person member).mp unreserved, .inr ⟨nobodyHas, has⟩⟩
    · rintro ⟨member, unreserved, matched⟩
      refine ⟨⟨member, ?_⟩, (free person member).mpr unreserved⟩
      exact (matched.resolve_left (nobodyHas person member)).2
  · rename_i somebody
    rw [exact_iff]
    constructor
    · rintro ⟨⟨member, has⟩, unreserved⟩
      exact ⟨member, (free person member).mp unreserved, .inl has⟩
    · rintro ⟨member, unreserved, matched⟩
      refine ⟨⟨member, matched.resolve_right fun both => ?_⟩,
        (free person member).mpr unreserved⟩
      obtain ⟨found, listed⟩ := List.exists_mem_of_ne_nil _ somebody
      exact both.1 found ((exact_iff found).mp listed).1 ((exact_iff found).mp listed).2

theorem matchesOnly_of_candidates (only : site.candidates target = [person]) :
    site.MatchesOnly target person.1 := by
  have listed : ∀ other, other ∈ site.candidates target ↔ other = person := by
    intro other
    rw [only, List.mem_singleton]
  obtain ⟨member, unreserved, matched⟩ := mem_candidates.mp ((listed person).mpr rfl)
  refine ⟨person, member, rfl, unreserved, matched, fun other otherMember free otherMatched => ?_⟩
  exact (listed other).mp (mem_candidates.mpr ⟨otherMember, free, otherMatched⟩)

/-! ## What is resolved -/

theorem propose_eq_some {rawDriverId : String} {rawNames : List (Option String)}
    (made : site.propose rawDriverId rawNames = some (driverId, employee)) :
    stripped rawDriverId = driverId ∧ driverId ∉ site.configured.keys ∧
      ∃ source person, namesOf rawNames = [source] ∧
        site.candidates (site.targetName source) = [person] ∧ person.1 = employee := by
  obtain ⟨usable, made⟩ := Option.ite_none_left_eq_some.mp made
  split at made
  · rename_i source names
    split at made
    · rename_i person only
      obtain ⟨rfl, rfl⟩ := Prod.mk.inj (Option.some.inj made)
      exact ⟨rfl, fun configured => usable (.inr configured), source, person, names, only, rfl⟩
    · cases made
  · cases made

theorem get_proposed (found : (site.proposed names).get driverId = some employee) :
    ∃ entry ∈ names.entries, site.propose entry.1 entry.2 = some (driverId, employee) := by
  rw [proposed, Dictionary.get_ofItems] at found
  obtain ⟨item, last, rfl⟩ := Option.map_eq_some_iff.mp found
  obtain ⟨member, isId⟩ := List.mem_filter.mp (List.mem_of_getLast? last)
  obtain ⟨entry, stored, made⟩ := List.mem_filterMap.mp member
  refine ⟨entry, stored, ?_⟩
  rw [made, ← of_decide_eq_true isId]

theorem get_explicit : (site.explicit names).get driverId = some employee ↔
    (site.configured.get driverId = some employee ∧
      employee ∈ site.people.map Prod.fst ∧ site.Allows employee) ∧
      driverId ∈ observedDriverIds names := by
  rw [explicit, Dictionary.get_filter_eq_some_iff, get_activeAllowedExplicit, decide_eq_true_iff]

theorem get_inferred : (site.inferred names).get driverId = some employee ↔
    (site.proposed names).get driverId = some employee ∧
      (site.proposed names).values.count employee = 1 := by
  rw [inferred, Dictionary.get_filter_eq_some_iff, decide_eq_true_iff]

/-- A driver is resolved by the mapping if it is configured, and by its name otherwise. -/
theorem resolved_iff : (resolveForkliftDriverIds site names).get driverId = some employee ↔
    (site.explicit names).get driverId = some employee ∨
      driverId ∉ site.configured.keys ∧ (site.inferred names).get driverId = some employee := by
  have unconfigured : ∀ {found}, (site.inferred names).get driverId = some found →
      driverId ∉ site.configured.keys := by
    intro found got
    obtain ⟨entry, -, made⟩ := get_proposed (get_inferred.mp got).1
    exact (propose_eq_some made).2.1
  rw [resolveForkliftDriverIds, Dictionary.get_update]
  cases inferred : (site.inferred names).get driverId with
  | none => simp
  | some found =>
      have unexplicit : (site.explicit names).get driverId ≠ some employee := by
        intro explicit
        exact unconfigured inferred
          (Dictionary.mem_keys_iff.mpr ⟨employee, (get_explicit.mp explicit).1.1⟩)
      simp [unexplicit, unconfigured inferred]

theorem unreserved_of_inferred (found : (site.inferred names).get driverId = some employee) :
    site.Unreserved employee ∧ ∃ person ∈ site.people, person.1 = employee := by
  obtain ⟨entry, -, made⟩ := get_proposed (get_inferred.mp found).1
  obtain ⟨-, -, source, person, -, only, rfl⟩ := propose_eq_some made
  obtain ⟨member, unreserved, -⟩ := mem_candidates.mp (only ▸ List.mem_singleton_self person)
  exact ⟨unreserved, person, member, rfl⟩

theorem active_of_resolved
    (found : (resolveForkliftDriverIds site names).get driverId = some employee) :
    (∃ person ∈ site.roster, person.active = true ∧ person.employeeId = some employee) ∧
      site.Allows employee := by
  have listed : employee ∈ site.people.map Prod.fst := by
    rcases resolved_iff.mp found with explicit | ⟨-, inferred⟩
    · exact (get_explicit.mp explicit).1.2.1
    · obtain ⟨-, person, member, rfl⟩ := unreserved_of_inferred inferred
      exact List.mem_map_of_mem member
  obtain ⟨person, member, rfl⟩ := List.mem_map.mp listed
  obtain ⟨onRoster, hasId, active, allows⟩ := mem_people.mp member
  exact ⟨⟨person.2, onRoster, active, hasId⟩, allows⟩

theorem shared_of_resolved
    (one : (resolveForkliftDriverIds site names).get driverId = some employee)
    (two : (resolveForkliftDriverIds site names).get other = some employee) :
    driverId = other ∨ site.configured.get driverId = some employee ∧
      site.configured.get other = some employee := by
  rcases resolved_iff.mp one with first | ⟨-, first⟩ <;>
    rcases resolved_iff.mp two with second | ⟨-, second⟩
  · exact .inr ⟨(get_explicit.mp first).1.1, (get_explicit.mp second).1.1⟩
  · exact absurd (get_explicit.mp first).1.1 ((unreserved_of_inferred second).1 driverId)
  · exact absurd (get_explicit.mp second).1.1 ((unreserved_of_inferred first).1 other)
  · exact .inl (Dictionary.key_unique_of_count_eq_one (get_inferred.mp first).2
      (get_inferred.mp first).1 (get_inferred.mp second).1)

theorem configured_of_resolved (configured : driverId ∈ site.configured.keys)
    (found : (resolveForkliftDriverIds site names).get driverId = some employee) :
    site.configured.get driverId = some employee := by
  rcases resolved_iff.mp found with explicit | ⟨unconfigured, -⟩
  · exact (get_explicit.mp explicit).1.1
  · exact absurd configured unconfigured

/-! ## Names that are observed -/

variable {entry further : String × List (Option String)}
  {after before : List (String × List (Option String))}

theorem filter_eq_singleton (distinct : DistinctIds names) (member : entry ∈ names.entries) :
    (names.entries.filter fun other => stripped other.1 = stripped entry.1) = [entry] := by
  have nodup : (names.entries.map fun other => stripped other.1).Nodup := by
    rw [DistinctIds, Dictionary.keys, List.map_map] at distinct
    exact distinct
  revert member nodup
  generalize names.entries = entries
  intro member nodup
  induction entries with
  | nil => exact absurd member List.not_mem_nil
  | cons first rest ih =>
      obtain ⟨absent, nodup⟩ := List.nodup_cons.mp nodup
      rcases List.mem_cons.mp member with rfl | later
      · rw [List.filter_cons_of_pos (by simp), List.filter_eq_nil_iff.mpr fun other isOther same =>
          absent (List.mem_map.mpr ⟨other, isOther, of_decide_eq_true same⟩)]
      · rw [List.filter_cons_of_neg, ih later nodup]
        exact fun same => absent (List.mem_map.mpr ⟨entry, later, (of_decide_eq_true same).symm⟩)

theorem observedNames_eq {source : String} (distinct : DistinctIds names)
    (member : entry ∈ names.entries) (single : namesOf entry.2 = [source]) :
    observedNames names (stripped entry.1) = [source] := by
  rw [observedNames, filter_eq_singleton distinct member, List.flatMap_singleton, single]
  rfl

theorem matchesOnly_of_inferred (distinct : DistinctIds names)
    (found : (site.inferred names).get driverId = some employee) :
    ∃ source, observedNames names driverId = [source] ∧
      site.MatchesOnly (site.targetName source) employee := by
  obtain ⟨entry, member, made⟩ := get_proposed (get_inferred.mp found).1
  obtain ⟨rfl, -, source, person, single, only, rfl⟩ := propose_eq_some made
  exact ⟨source, observedNames_eq distinct member single, matchesOnly_of_candidates only⟩

/-! ## A further driver -/

/-- What is proposed for the other drivers does not depend on a driver that is observed besides. -/
theorem proposed_of_further {names more : Observed} (same : names.entries = before ++ after)
    (added : more.entries = before ++ further :: after) (another : stripped further.1 ≠ driverId) :
    (site.proposed more).get driverId = (site.proposed names).get driverId := by
  rw [proposed, proposed, Dictionary.get_ofItems, Dictionary.get_ofItems, same, added,
    List.filterMap_append, List.filterMap_append, List.filterMap_cons]
  cases made : site.propose further.1 further.2 with
  | none => rfl
  | some item =>
      have isOther : item.1 ≠ driverId := (propose_eq_some made).1 ▸ another
      rw [List.filter_append, List.filter_append,
        List.filter_cons_of_neg (by simpa using isOther)]

theorem resolved_of_further {names more : Observed} (same : names.entries = before ++ after)
    (added : more.entries = before ++ further :: after)
    (another : ∀ entry ∈ names.entries, stripped entry.1 ≠ stripped further.1) {later : ℤ}
    (found : (resolveForkliftDriverIds site names).get driverId = some employee)
    (again : (resolveForkliftDriverIds site more).get driverId = some later) :
    later = employee := by
  by_cases configured : driverId ∈ site.configured.keys
  · have first := configured_of_resolved configured found
    rw [configured_of_resolved configured again] at first
    exact Option.some.inj first
  · have inferred : ∀ {names : Observed} {employee : ℤ},
        (resolveForkliftDriverIds site names).get driverId = some employee →
          (site.proposed names).get driverId = some employee := by
      intro names employee found
      rcases resolved_iff.mp found with explicit | ⟨-, inferred⟩
      · exact absurd (Dictionary.mem_keys_iff.mpr ⟨_, (get_explicit.mp explicit).1.1⟩) configured
      · exact (get_inferred.mp inferred).1
    obtain ⟨entry, member, made⟩ := get_proposed (inferred found)
    have isOther : stripped further.1 ≠ driverId := by
      rw [← (propose_eq_some made).1]
      exact (another entry member).symm
    have proposes := inferred again
    rw [proposed_of_further same added isOther, inferred found] at proposes
    exact (Option.some.inj proposes).symm

/-! ## A further person -/

/-- A person of the full name of a driver whom nobody had the full name of before. -/
def Shadows (site : Identities) (names : Observed) (person : Person) (driverId : String) : Prop :=
  ∃ source, observedNames names driverId = [source] ∧
    site.casefold (fullName person) = site.casefold (site.targetName source) ∧
      ∀ other ∈ site.people, ¬site.HasFullName (site.targetName source) other

/-- With another person, a sole match is found again unless that person is the match. -/
theorem matchesOnly_of_further {before after : List Person} {further : Person} {later : ℤ}
    (same : site.roster = before ++ after) (found : site.MatchesOnly target employee)
    (again : Identities.MatchesOnly { site with roster := before ++ further :: after } target
      later) :
    later = employee ∨ further.employeeId = some later ∧
      site.casefold (fullName further) = site.casefold target ∧
        ∀ other ∈ site.people, ¬site.HasFullName target other := by
  obtain ⟨person, member, rfl, unreserved, matched, -⟩ := found
  obtain ⟨only, onlyMember, rfl, onlyUnreserved, onlyMatched, unique⟩ := again
  have mem_iff : ∀ other : ℤ × Person,
      other ∈ Identities.people { site with roster := before ++ further :: after } ↔
        other ∈ site.people ∨ site.eligible further = some other := by
    intro other
    change other ∈ (before ++ further :: after).filterMap site.eligible ↔
      other ∈ site.roster.filterMap site.eligible ∨ _
    rw [same, List.filterMap_append, List.filterMap_append, List.filterMap_cons]
    cases site.eligible further with
    | none => simp
    | some added =>
        grind
  by_cases shadowed : ∃ other, site.eligible further = some other ∧
      site.HasFullName target other ∧ ∀ other ∈ site.people, ¬site.HasFullName target other
  · obtain ⟨other, added, has, nobody⟩ := shadowed
    have onlyHas : site.HasFullName target only :=
      onlyMatched.resolve_right fun ⟨nobodyHas, _⟩ => nobodyHas other ((mem_iff other).mpr (.inr added)) has
    have isFurther : site.eligible further = some only :=
      ((mem_iff only).mp onlyMember).resolve_left fun old => nobody only old onlyHas
    obtain ⟨rfl, hasId⟩ := eligible_eq_some isFurther
    exact .inr ⟨hasId, onlyHas.2, nobody⟩
  · left
    -- the old match matches still
    have still : Identities.Matches { site with roster := before ++ further :: after } target
        person := by
      rcases matched with has | ⟨nobody, has⟩
      · exact .inl has
      · refine .inr ⟨fun other otherMember otherHas => ?_, has⟩
        rcases (mem_iff other).mp otherMember with old | added
        · exact nobody other old otherHas
        · exact shadowed ⟨other, added, otherHas, nobody⟩
    exact congrArg Prod.fst (unique person ((mem_iff person).mpr (.inl member)) unreserved still).symm

theorem resolved_of_further_person {more : Identities} {before after : List Person}
    {further : Person} {later : ℤ} (distinct : DistinctIds names)
    (same : site.roster = before ++ after)
    (added : more = { site with roster := before ++ further :: after })
    (found : (resolveForkliftDriverIds site names).get driverId = some employee)
    (again : (resolveForkliftDriverIds more names).get driverId = some later) :
    later = employee ∨ further.employeeId = some later ∧ site.Shadows names further driverId := by
  by_cases configured : driverId ∈ site.configured.keys
  · have first := configured_of_resolved configured found
    have second : more.configured.get driverId = some later :=
      configured_of_resolved (added ▸ configured) again
    rw [added, first] at second
    exact .inl (Option.some.inj second).symm
  · have inferred : ∀ {site' : Identities} {employee : ℤ}, site'.configured = site.configured →
        (resolveForkliftDriverIds site' names).get driverId = some employee →
          (site'.inferred names).get driverId = some employee := by
      intro site' employee same found
      rcases resolved_iff.mp found with explicit | ⟨-, inferred⟩
      · refine absurd (Dictionary.mem_keys_iff.mpr ⟨employee, ?_⟩) configured
        exact same ▸ (get_explicit.mp explicit).1.1
      · exact inferred
    obtain ⟨source, observed, matched⟩ := matchesOnly_of_inferred distinct (inferred rfl found)
    obtain ⟨sourceAgain, observedAgain, matchedAgain⟩ :=
      matchesOnly_of_inferred distinct (inferred (by rw [added]) again)
    obtain rfl : source = sourceAgain := (List.cons.inj (observed.symm.trans observedAgain)).1
    subst added
    rcases matchesOnly_of_further same matched matchedAgain with kept | ⟨hasId, full, nobody⟩
    · exact .inl kept
    · exact .inr ⟨hasId, source, observed, full, nobody⟩

end Identities

open Identities

/-- Drivers are joined to active and allowed employees, two to one only if both are configured so,
a configured one by the mapping alone, and another by its only name and the only unreserved person
whom the name matches. A further driver leaves the joins that are found again; so does a further
person, unless the person has the full name of a driver whom nobody had the full name of. -/
theorem driver_identities (site : Identities) (names : Observed) (distinct : DistinctIds names) :
    (∀ driverId employee, (resolveForkliftDriverIds site names).get driverId = some employee →
      (∃ person ∈ site.roster, person.active = true ∧ person.employeeId = some employee) ∧
        site.Allows employee) ∧
    (∀ driverId other employee,
      (resolveForkliftDriverIds site names).get driverId = some employee →
      (resolveForkliftDriverIds site names).get other = some employee →
      driverId = other ∨ site.configured.get driverId = some employee ∧
        site.configured.get other = some employee) ∧
    (∀ driverId employee, driverId ∈ site.configured.keys →
      (resolveForkliftDriverIds site names).get driverId = some employee →
      site.configured.get driverId = some employee) ∧
    (∀ driverId employee, driverId ∉ site.configured.keys →
      (resolveForkliftDriverIds site names).get driverId = some employee →
      ∃ source, observedNames names driverId = [source] ∧
        site.MatchesOnly (site.targetName source) employee) ∧
    (∀ (more : Observed) before after further, names.entries = before ++ after →
      more.entries = before ++ further :: after →
      (∀ entry ∈ names.entries, stripped entry.1 ≠ stripped further.1) →
      ∀ driverId employee later,
        (resolveForkliftDriverIds site names).get driverId = some employee →
        (resolveForkliftDriverIds site more).get driverId = some later → later = employee) ∧
    (∀ before after further, site.roster = before ++ after → ∀ driverId employee later,
      (resolveForkliftDriverIds site names).get driverId = some employee →
      (resolveForkliftDriverIds { site with roster := before ++ further :: after } names).get
        driverId = some later →
      later = employee ∨
        further.employeeId = some later ∧ site.Shadows names further driverId) := by
  refine ⟨fun _ _ => active_of_resolved, fun _ _ _ => shared_of_resolved,
    fun _ _ => configured_of_resolved, fun driverId employee unconfigured found => ?_,
    fun _ _ _ _ same added another _ _ _ => resolved_of_further same added another,
    fun _ _ _ same _ _ _ => resolved_of_further_person distinct same rfl⟩
  rcases resolved_iff.mp found with explicit | ⟨-, inferred⟩
  · exact absurd (Dictionary.mem_keys_iff.mpr ⟨employee, (get_explicit.mp explicit).1.1⟩)
      unconfigured
  · exact matchesOnly_of_inferred distinct inferred

/-! ## A person of just that name -/

def isidro : Identities where
  roster := [⟨"Isidro Moctezuma", some 17, true⟩, ⟨"Trent Iverson", some 60, true⟩]
  configured := ∅
  overrides := ∅
  allowedEmployeeIds := none
  casefold := String.toLower

/-- Isidro Moctezuma drives as Isidro. -/
def isidroDrives : Observed := ⟨[("d-1", [some "Isidro"])], by simp⟩

/-- One driver under two spellings of the ID, with two names. -/
def twoNames : Observed :=
  ⟨[(" d-1", [some "Trent Iverson"]), ("d-1", [some "Isidro"])], by simp⟩

/-- A new employee whose whole name is Isidro takes the driver over; and a driver with two names is
resolved when its ID is written in two ways. -/
theorem driver_taken_over :
    (resolveForkliftDriverIds isidro isidroDrives).get "d-1" = some 17 ∧
      (resolveForkliftDriverIds
        { isidro with roster := isidro.roster ++ [⟨"Isidro", some 18, true⟩] } isidroDrives).get
          "d-1" = some 18 ∧
      (resolveForkliftDriverIds isidro twoNames).get "d-1" = some 17 ∧
      observedNames twoNames "d-1" = ["Trent Iverson", "Isidro"] := by
  decide +kernel

theorem driver_identities_isidro :
    (∃ person ∈ isidro.roster, person.active = true ∧ person.employeeId = some 17) ∧
      isidro.Allows 17 :=
  (driver_identities isidro isidroDrives (by unfold DistinctIds; decide +kernel)).1 "d-1" 17
    (by decide +kernel)

end PlantManager.Forklift

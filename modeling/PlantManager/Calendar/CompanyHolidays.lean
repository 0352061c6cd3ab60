import PlantManager.Mapping.SortedMap
import PlantManager.Roster.People

/-! # The mirror of the company holidays

A refresh replaces the table with the holidays of a whole response of Odoo and then installs the map
that it built from them; a reload builds a map from the table and installs it. When no refresh
commits while another call has a map that it did not install yet, the map in memory is the one of
the table after all calls (`Calendar.holidays_mirrored`). Two refreshes that install in
the other order leave the map of the earlier commit (`Calendar.older_map_installed`).
-/

namespace PlantManager.Calendar

open Checks Mapping Transition
open Roster (stripped)

/-! ## Holidays of Odoo -/

/-- A value of a row. -/
inductive Value where
  | text (text : String)
  | int (value : ℤ)
  | bool (value : Bool)
  | other

/-- A row, with what its `get` reads. -/
inductive RawRow where
  | mapping (id name dateFrom dateTo : Value)
  | other

inductive Response where
  | rows (rows : List RawRow)
  | other
  | raises (error : String)

/-- The moment of UTC that `strptime` reads, the date of the plant at a moment, and the last date
that there is. -/
structure Site where
  strptime : String → Option ℤ
  plantDate : ℤ → Option ℤ
  lastDay : ℤ

structure CompanyHoliday where
  odooId : ℤ
  name : String
  dateFrom : ℤ
  dateTo : ℤ
  odooDateFrom : String
  odooDateTo : String
  deriving DecidableEq

variable (site : Site)

def outOfRange : String := "date value out of range"

/-- A text and its moment. -/
def odooUtc : Value → Except String (String × ℤ)
  | .text text =>
      match site.strptime text with
      | some moment => .ok (text, moment)
      | none => .error "holiday datetime is invalid"
  | _ => .error "holiday datetime must be text"

def plantDate (moment : ℤ) : Except String ℤ :=
  match site.plantDate moment with
  | some day => .ok day
  | none => .error outOfRange

def normalizeOdooRow : RawRow → Except String CompanyHoliday
  | .other => .error "holiday row must be a mapping"
  | .mapping id name dateFrom dateTo => do
      let odooId ← match id with
        | .int id =>
            if 0 < id then .ok id else .error "holiday id must be a positive integer"
        | _ => .error "holiday id must be a positive integer"
      let name ← match name with
        | .text name =>
            if stripped name = "" then .error "holiday name must not be blank"
            else .ok (stripped name)
        | _ => .error "holiday name must not be blank"
      let (rawFrom, utcFrom) ← odooUtc site dateFrom
      let (rawTo, utcTo) ← odooUtc site dateTo
      raiseIf (utcTo < utcFrom) "holiday end must not be before its start"
      let localFrom ← plantDate site utcFrom
      let localTo ← plantDate site utcTo
      raiseIf (localTo < localFrom) "holiday end date must not be before its start"
      return ⟨odooId, name, localFrom, localTo, rawFrom, rawTo⟩

def readResponse : Response → Except String (List CompanyHoliday)
  | .raises error => .error error
  | .other => .error "holiday response must be a list"
  | .rows rows => do
      let holidays ← rows.mapM (normalizeOdooRow site)
      raiseIf (¬(holidays.map CompanyHoliday.odooId).Nodup)
        "holiday response contains duplicate ids"
      return holidays

/-! ## The map -/

abbrev DateMap := SortedMap ℤ CompanyHoliday

def CompanyHoliday.Covers (holiday : CompanyHoliday) (day : ℤ) : Prop :=
  holiday.dateFrom ≤ day ∧ day ≤ holiday.dateTo

instance (holiday : CompanyHoliday) (day : ℤ) : Decidable (holiday.Covers day) :=
  inferInstanceAs (Decidable (_ ∧ _))

def CompanyHoliday.days (holiday : CompanyHoliday) : List ℤ :=
  (List.range (holiday.dateTo + 1 - holiday.dateFrom).toNat).map fun index : ℕ =>
    holiday.dateFrom + index

/-- The holiday of a day that another one has or has not. -/
def winner (holiday : CompanyHoliday) : Option CompanyHoliday → CompanyHoliday
  | none => holiday
  | some existing => if holiday.odooId < existing.odooId then holiday else existing

def place (holiday : CompanyHoliday) (replacement : DateMap) (day : ℤ) : DateMap :=
  replacement.set day (winner holiday (replacement.get day))

def dateMap (holidays : List CompanyHoliday) : DateMap :=
  holidays.foldl (fun replacement holiday => holiday.days.foldl (place holiday) replacement) ∅

/-- There is no day after the last one. -/
def buildDateMap (holidays : List CompanyHoliday) : Option DateMap :=
  if ∃ holiday ∈ holidays, holiday.dateFrom ≤ holiday.dateTo ∧ site.lastDay ≤ holiday.dateTo then
    none
  else some (dateMap holidays)

/-! ## The table -/

def replaceTable (table : SortedMap ℤ CompanyHoliday) (holidays : List CompanyHoliday) :
    SortedMap ℤ CompanyHoliday :=
  let written := table.update (holidays.map fun holiday => (holiday.odooId, holiday))
  (written.keys.filter (· ∉ holidays.map CompanyHoliday.odooId)).foldl SortedMap.erase written

structure HolidaySyncHealth where
  lastSuccessAt : Option ℤ
  lastAttemptAt : Option ℤ
  lastError : Option String
  deriving DecidableEq

/-- The first characters of an error. -/
def recorded (error : String) : String := String.ofList (error.toList.take 500)

def recordFailure (attemptedAt : ℤ) (error : String) (health : HolidaySyncHealth) :
    HolidaySyncHealth :=
  { health with lastAttemptAt := some attemptedAt, lastError := some (recorded error) }

/-! ## Calls -/

/-- Where a call is. -/
inductive Phase where
  | idle
  | prepared (attemptedAt : ℤ) (holidays : List CompanyHoliday) (replacement : DateMap)
  | failed (attemptedAt : ℤ) (error : String)
  /-- Its map is not installed yet. -/
  | built (replacement : DateMap)

structure World where
  table : SortedMap ℤ CompanyHoliday
  holidaysByDay : DateMap
  health : HolidaySyncHealth
  calls : ℕ → Phase

def World.rows (world : World) : List CompanyHoliday := world.table.entries.map Prod.snd

def World.forDay (world : World) (day : ℤ) : Option CompanyHoliday := world.holidaysByDay.get day

def World.become (world : World) (call : ℕ) (phase : Phase) : World :=
  { world with calls := Function.update world.calls call phase }

/-- A refresh fetches, commits (or its transaction raises), and installs or records a failure. A
reload reads and installs. -/
inductive Action where
  | fetch (call : ℕ) (response : Response) (now : ℤ)
  | commit (call : ℕ) (error : Option String)
  | record (call : ℕ) (landed : Bool)
  | read (call : ℕ) (landed : Bool)
  | install (call : ℕ)

/-- What a refresh has before its transaction. -/
def prepare (response : Response) (now : ℤ) : Phase :=
  match readResponse site response with
  | .error error => .failed now error
  | .ok holidays =>
      match buildDateMap site holidays with
      | none => .failed now outOfRange
      | some replacement => .prepared now holidays replacement

def step (world : World) : Action → Option World
  | .fetch call response now =>
      match world.calls call with
      | .idle => some (world.become call (prepare site response now))
      | _ => none
  | .commit call error =>
      match world.calls call with
      | .prepared attemptedAt holidays replacement =>
          some (match error with
            | some error => world.become call (.failed attemptedAt error)
            | none =>
                { world.become call (.built replacement) with
                  table := replaceTable world.table holidays
                  health := ⟨some attemptedAt, some attemptedAt, none⟩ })
      | _ => none
  | .record call landed =>
      match world.calls call with
      | .failed attemptedAt error =>
          some { world.become call .idle with
            health := if landed then recordFailure attemptedAt error world.health
              else world.health }
      | _ => none
  | .read call landed =>
      match world.calls call with
      | .idle =>
          some (world.become call
            (match if landed then buildDateMap site world.rows else none with
              | some replacement => .built replacement
              | none => .idle))
      | _ => none
  | .install call =>
      match world.calls call with
      | .built replacement =>
          some { world.become call .idle with holidaysByDay := replacement }
      | _ => none

/-! ## The holiday of a day -/

/-- The holiday with the least id of those that contain the day. -/
def HolidayOf (holidays : List CompanyHoliday) (day : ℤ) : Option CompanyHoliday → Prop
  | none => ∀ holiday ∈ holidays, ¬holiday.Covers day
  | some holiday => holiday ∈ holidays ∧ holiday.Covers day ∧
      ∀ other ∈ holidays, other.Covers day → holiday.odooId ≤ other.odooId

variable {holidays others : List CompanyHoliday} {holiday : CompanyHoliday} {day : ℤ}

theorem mem_days : day ∈ holiday.days ↔ holiday.Covers day := by
  rw [CompanyHoliday.days, List.mem_map]
  constructor
  · rintro ⟨index, inside, rfl⟩
    have before := List.mem_range.mp inside
    exact ⟨by omega, by omega⟩
  · rintro ⟨begun, notOver⟩
    exact ⟨(day - holiday.dateFrom).toNat, List.mem_range.mpr (by omega), by omega⟩

theorem nodup_days (holiday : CompanyHoliday) : holiday.days.Nodup :=
  List.nodup_range.map fun first second same => by
    omega

theorem get_foldl_place {days : List ℤ} (once : days.Nodup) (replacement : DateMap) :
    (days.foldl (place holiday) replacement).get day =
      if day ∈ days then some (winner holiday (replacement.get day)) else replacement.get day := by
  induction days generalizing replacement with
  | nil => rfl
  | cons first rest ih =>
      obtain ⟨absent, once⟩ := List.nodup_cons.mp once
      rw [List.foldl_cons, ih once, place, SortedMap.get_set]
      by_cases same : day = first
      · subst same
        rw [if_neg absent, if_pos rfl, if_pos List.mem_cons_self]
      · rw [if_neg same]
        simp only [List.mem_cons, same, false_or]

/-- A holiday that is placed on its days is the one of a day or leaves it as it is. -/
theorem HolidayOf.concat {found : Option CompanyHoliday} (isOf : HolidayOf holidays day found) :
    HolidayOf (holidays ++ [holiday]) day
      (if holiday.Covers day then some (winner holiday found) else found) := by
  have cases_ : ∀ other ∈ holidays ++ [holiday], other ∈ holidays ∨ other = holiday :=
    fun other member => (List.mem_append.mp member).imp_right List.mem_singleton.mp
  split
  · rename_i covers
    cases found with
    | none =>
        refine ⟨List.mem_append_right _ List.mem_cons_self, covers, fun other member also => ?_⟩
        rcases cases_ other member with earlier | rfl
        · exact absurd also (isOf other earlier)
        · exact le_rfl
    | some existing =>
        obtain ⟨inside, held, least⟩ := isOf
        rw [winner]
        split
        · rename_i lower
          refine ⟨List.mem_append_right _ List.mem_cons_self, covers, fun other member also => ?_⟩
          rcases cases_ other member with earlier | rfl
          · exact lower.le.trans (least other earlier also)
          · exact le_rfl
        · rename_i higher
          refine ⟨List.mem_append_left _ inside, held, fun other member also => ?_⟩
          rcases cases_ other member with earlier | rfl
          · exact least other earlier also
          · exact not_lt.mp higher
  · rename_i other_
    cases found with
    | none =>
        intro other member
        rcases cases_ other member with earlier | rfl
        · exact isOf other earlier
        · exact other_
    | some existing =>
        refine ⟨List.mem_append_left _ isOf.1, isOf.2.1, fun other member also => ?_⟩
        rcases cases_ other member with earlier | rfl
        · exact isOf.2.2 other earlier also
        · exact absurd also other_

theorem holidayOf_dateMap (holidays : List CompanyHoliday) (day : ℤ) :
    HolidayOf holidays day ((dateMap holidays).get day) := by
  induction holidays using List.reverseRecOn with
  | nil => exact fun _ member => absurd member List.not_mem_nil
  | append_singleton earlier holiday ih =>
      rw [dateMap, List.foldl_concat, get_foldl_place (nodup_days holiday), ← dateMap]
      simp only [mem_days]
      exact ih.concat

/-- The order of the holidays does not matter for the map. -/
theorem dateMap_congr (distinct : (holidays.map CompanyHoliday.odooId).Nodup)
    (same : ∀ holiday, holiday ∈ others ↔ holiday ∈ holidays) :
    dateMap others = dateMap holidays := by
  refine SortedMap.ext_get fun day => ?_
  have isOther := holidayOf_dateMap others day
  have isOf := holidayOf_dateMap holidays day
  cases found : (dateMap holidays).get day with
  | none =>
      cases also : (dateMap others).get day with
      | none => rfl
      | some holiday =>
          rw [found] at isOf
          rw [also] at isOther
          exact absurd isOther.2.1 (isOf holiday ((same holiday).mp isOther.1))
  | some holiday =>
      rw [found] at isOf
      cases also : (dateMap others).get day with
      | none =>
          rw [also] at isOther
          exact absurd isOf.2.1 (isOther holiday ((same holiday).mpr isOf.1))
      | some other =>
          rw [also] at isOther
          have inside := (same other).mp isOther.1
          exact congrArg some (List.inj_on_of_nodup_map distinct inside isOf.1 (le_antisymm
            (isOther.2.2 holiday ((same holiday).mpr isOf.1) isOf.2.1)
            (isOf.2.2 other inside isOther.2.1)))

variable {site}

theorem buildDateMap_congr (distinct : (holidays.map CompanyHoliday.odooId).Nodup)
    (same : ∀ holiday, holiday ∈ others ↔ holiday ∈ holidays) :
    buildDateMap site others = buildDateMap site holidays := by
  unfold buildDateMap
  simp only [same, dateMap_congr distinct same]

/-! ## The rows of the table -/

theorem get_foldl_erase (keys : List ℤ) (table : SortedMap ℤ CompanyHoliday) (key : ℤ) :
    (keys.foldl SortedMap.erase table).get key = if key ∈ keys then none else table.get key := by
  induction keys generalizing table with
  | nil => rfl
  | cons first rest ih =>
      rw [List.foldl_cons, ih, SortedMap.get_erase]
      by_cases same : key = first <;> simp [same]

theorem replaceTable_eq (table : SortedMap ℤ CompanyHoliday)
    (distinct : (holidays.map CompanyHoliday.odooId).Nodup) :
    replaceTable table holidays =
      .ofList (holidays.map fun holiday => (holiday.odooId, holiday)) := by
  have keys : (holidays.map fun holiday => (holiday.odooId, holiday)).map Prod.fst =
      holidays.map CompanyHoliday.odooId := List.map_map
  refine SortedMap.ext_get fun key => ?_
  simp only [replaceTable, get_foldl_erase, List.mem_filter, decide_eq_true_iff, SortedMap.ofList,
    SortedMap.get_update_of_nodup (keys ▸ distinct), SortedMap.get_empty, Option.or_none,
    SortedMap.mem_keys_update, keys]
  by_cases listed : key ∈ holidays.map CompanyHoliday.odooId
  · obtain ⟨value, found⟩ : ∃ value, (holidays.map fun holiday =>
        (holiday.odooId, holiday)).lookup key = some value := by
      refine Option.isSome_iff_exists.mp (Option.isSome_iff_ne_none.mpr fun none => ?_)
      obtain ⟨holiday, member, rfl⟩ := List.mem_map.mp listed
      have absent := List.lookup_eq_none_iff.mp none _ (List.mem_map_of_mem member)
      simp at absent
    rw [if_neg fun both => both.2 listed, found]
    rfl
  · have none : (holidays.map fun holiday => (holiday.odooId, holiday)).lookup key = none := by
      refine List.lookup_eq_none_iff.mpr fun entry member => bne_iff_ne.mpr fun same => listed ?_
      rw [same, ← keys]
      exact List.mem_map_of_mem member
    rw [none, Option.none_or]
    split
    · rfl
    · rename_i kept
      refine Option.eq_none_iff_forall_ne_some.mpr fun value found => kept ⟨.inr ?_, listed⟩
      exact SortedMap.get_isSome_iff.mp (Option.isSome_iff_exists.mpr ⟨value, found⟩)

/-- The rows of the table after a commit are the holidays of the response. -/
theorem mem_replaceTable {table : SortedMap ℤ CompanyHoliday}
    (distinct : (holidays.map CompanyHoliday.odooId).Nodup) :
    holiday ∈ (replaceTable table holidays).entries.map Prod.snd ↔ holiday ∈ holidays := by
  have keys : (holidays.map fun holiday => (holiday.odooId, holiday)).map Prod.fst =
      holidays.map CompanyHoliday.odooId := List.map_map
  rw [replaceTable_eq table distinct]
  rw [((SortedMap.entries_ofList_perm (keys ▸ distinct)).map Prod.snd).mem_iff, List.map_map]
  exact (List.map_id holidays).symm ▸ Iff.rfl

theorem readResponse_distinct {response : Response}
    (returned : readResponse site response = .ok holidays) :
    (holidays.map CompanyHoliday.odooId).Nodup := by
  cases response with
  | rows rows =>
      obtain ⟨read, -, later⟩ := bind_eq_ok.mp returned
      obtain ⟨once, same⟩ := raiseIf_bind_eq_ok.mp later
      exact Except.ok.inj same ▸ not_not.mp once
  | other | raises error => cases returned

/-! ## The promise -/

/-- What the mirror of the holidays promises. -/
structure Mirrors (allowed : World → Action → Prop) (site : Site) (start : World) : Prop where
  /-- A refresh leaves exactly the holidays of the response, and each day has its own. -/
  succeeds : ∀ call response now next, run (step site) start
    [.fetch call response now, .commit call none, .install call] = some next →
      ∃ holidays, readResponse site response = .ok holidays ∧
        (∀ holiday, holiday ∈ next.rows ↔ holiday ∈ holidays) ∧
          ∀ day, HolidayOf holidays day (next.forDay day)
  /-- In whichever order Odoo lists them. -/
  orderless : ∀ call rows others now next last, rows.Perm others → run (step site) start
    [.fetch call (.rows rows) now, .commit call none, .install call] = some next →
      run (step site) start
        [.fetch call (.rows others) now, .commit call none, .install call] = some last →
          next.forDay = last.forDay
  /-- A refresh that cannot use the response leaves both as they were, and records why. -/
  fails : ∀ call response now error landed next, readResponse site response = .error error →
    run (step site) start [.fetch call response now, .record call landed] = some next →
      next.table = start.table ∧ next.holidaysByDay = start.holidaysByDay ∧
        (landed = true → next.health = recordFailure now error start.health)
  /-- When all calls are over, the map is the one of the table, or both are as at the start. -/
  settled : (∀ call, start.calls call = .idle) →
    ∀ world, Reachable start (step site) allowed world →
    (∀ call, world.calls call = .idle) →
      buildDateMap site world.rows = some world.holidaysByDay ∨
        world.table = start.table ∧ world.holidaysByDay = start.holidaysByDay

/-- No refresh commits while another call has a map that it did not install. -/
def InOrder (world : World) : Action → Prop
  | .commit call none => ∀ other ≠ call, ∀ replacement, world.calls other ≠ .built replacement
  | _ => True

variable {start world next : World} {call : ℕ} {response : Response} {now : ℤ}

theorem become_self (world : World) (call : ℕ) (phase : Phase) :
    (world.become call phase).calls call = phase := Function.update_self ..

/-- What a call knows. -/
def Known (site : Site) (world : World) : Phase → Prop
  | .prepared _ holidays replacement => buildDateMap site holidays = some replacement ∧
      (holidays.map CompanyHoliday.odooId).Nodup
  | .built replacement => buildDateMap site world.rows = some replacement
  | _ => True

structure Sound (site : Site) (start world : World) : Prop where
  calls : ∀ call, Known site world (world.calls call)
  /-- The map is not the one of the table only before a call installs its map. -/
  installed : (∃ call replacement, world.calls call = .built replacement) ∨
    buildDateMap site world.rows = some world.holidaysByDay ∨
      world.table = start.table ∧ world.holidaysByDay = start.holidaysByDay

theorem known_prepare (response : Response) (now : ℤ) :
    Known site world (prepare site response now) := by
  unfold prepare
  split
  · trivial
  · rename_i holidays returned
    split
    · trivial
    · rename_i replacement built
      exact ⟨built, readResponse_distinct returned⟩

/-- A step that neither commits nor installs. -/
theorem Sound.become (sound : Sound site start world) {phase : Phase}
    (known : Known site world phase)
    (notBuilt : ∀ replacement, world.calls call ≠ .built replacement) :
    Sound site start (world.become call phase) where
  calls := fun other => by
    change Known site world (Function.update world.calls call phase other)
    rw [Function.update_apply]
    split
    · exact known
    · exact sound.calls other
  installed := by
    refine sound.installed.imp_left ?_
    rintro ⟨other, replacement, built⟩
    refine ⟨other, replacement, ?_⟩
    change Function.update world.calls call phase other = _
    rwa [Function.update_of_ne]
    rintro rfl
    exact notBuilt replacement built

variable {replacement : DateMap}

section

variable (sound : Sound site start world)
include sound

theorem Sound.commit (inOrder : InOrder world (.commit call none)) {attemptedAt : ℤ}
    (prepared : world.calls call = .prepared attemptedAt holidays replacement) :
    Sound site start { world.become call (.built replacement) with
      table := replaceTable world.table holidays
      health := ⟨some attemptedAt, some attemptedAt, none⟩ } where
  calls := fun other => by
    have known := sound.calls call
    rw [prepared] at known
    obtain ⟨built, distinct⟩ := known
    have table : buildDateMap site ((replaceTable world.table holidays).entries.map Prod.snd) =
        some replacement :=
      (buildDateMap_congr distinct fun _ => mem_replaceTable distinct).trans built
    change Known site _ (Function.update world.calls call (.built replacement) other)
    rw [Function.update_apply]
    split
    · exact table
    · rename_i different
      have theirs := sound.calls other
      cases at_ : world.calls other with
      | built older => exact absurd at_ (inOrder other different older)
      | prepared _ _ _ =>
          rw [at_] at theirs
          exact theirs
      | idle | failed _ _ => trivial
  installed := .inl ⟨call, replacement, become_self world call _⟩

theorem Sound.install (built : world.calls call = .built replacement) :
    Sound site start { world.become call .idle with holidaysByDay := replacement } where
  calls := fun other => by
    change Known site _ (Function.update world.calls call .idle other)
    rw [Function.update_apply]
    split
    · trivial
    · exact sound.calls other
  installed := by
    have known := sound.calls call
    rw [built] at known
    exact .inr (.inl known)

theorem Sound.step {action : Action} (inOrder : InOrder world action)
    (taken : Calendar.step site world action = some next) : Sound site start next := by
  cases action with
  | fetch call response now =>
      simp only [Calendar.step] at taken
      split at taken
      · rename_i idle
        obtain rfl := Option.some.inj taken
        exact sound.become (known_prepare response now) fun _ built => nomatch idle.symm.trans built
      · cases taken
  | commit call error =>
      simp only [Calendar.step] at taken
      split at taken
      · rename_i prepared
        obtain rfl := Option.some.inj taken
        cases error with
        | none => exact sound.commit inOrder prepared
        | some error =>
            exact sound.become trivial fun _ built => nomatch prepared.symm.trans built
      · cases taken
  | record call landed =>
      simp only [Calendar.step] at taken
      split at taken
      · rename_i failed
        obtain rfl := Option.some.inj taken
        have after : Sound site start (world.become call .idle) :=
          sound.become trivial fun _ built => nomatch failed.symm.trans built
        exact ⟨after.calls, after.installed⟩
      · cases taken
  | read call landed =>
      simp only [Calendar.step] at taken
      split at taken
      · rename_i idle
        obtain rfl := Option.some.inj taken
        refine sound.become ?_ fun _ built => nomatch idle.symm.trans built
        split
        · rename_i replacement read
          cases landed with
          | true => exact read
          | false => cases read
        · trivial
      · cases taken
  | install call =>
      simp only [Calendar.step] at taken
      split at taken
      · rename_i replacement built
        obtain rfl := Option.some.inj taken
        exact sound.install built
      · cases taken

end

/-- A refresh that nobody interrupts. -/
theorem refresh_eq_some (ran : run (step site) start
    [.fetch call response now, .commit call none, .install call] = some next) :
    ∃ holidays replacement, readResponse site response = .ok holidays ∧
      buildDateMap site holidays = some replacement ∧
        next.table = replaceTable start.table holidays ∧ next.holidaysByDay = replacement := by
  obtain ⟨fetched, taken, ran⟩ := Option.bind_eq_some_iff.mp ran
  obtain ⟨committed, taken', ran⟩ := Option.bind_eq_some_iff.mp ran
  obtain ⟨installed, taken'', ran⟩ := Option.bind_eq_some_iff.mp ran
  obtain rfl := Option.some.inj ran
  simp only [Calendar.step] at taken
  split at taken
  swap
  · cases taken
  obtain rfl := Option.some.inj taken
  simp only [Calendar.step, become_self] at taken'
  split at taken'
  swap
  · cases taken'
  rename_i attemptedAt holidays replacement prepared
  obtain rfl := Option.some.inj taken'
  simp only [Calendar.step, become_self] at taken''
  obtain rfl := Option.some.inj taken''
  unfold prepare at prepared
  split at prepared
  · cases prepared
  · rename_i returned
    split at prepared
    · cases prepared
    · rename_i built
      obtain ⟨-, rfl, rfl⟩ := Phase.prepared.inj prepared
      exact ⟨_, _, returned, built, rfl, rfl⟩

theorem eq_dateMap (built : buildDateMap site holidays = some replacement) :
    replacement = dateMap holidays := by
  obtain ⟨-, built⟩ := Option.ite_none_left_eq_some.mp built
  exact (Option.some.inj built).symm

/-- From every state, a refresh mirrors its response or changes nothing. When no refresh commits
while a map waits to be installed, the map is the one of the table after all calls. -/
theorem holidays_mirrored (site : Site) (start : World) : Mirrors InOrder site start where
  succeeds := by
    intro call response now next ran
    obtain ⟨holidays, replacement, returned, built, table, installed⟩ := refresh_eq_some ran
    refine ⟨holidays, returned, fun holiday => ?_, fun day => ?_⟩
    · rw [World.rows, table, mem_replaceTable (readResponse_distinct returned)]
    · rw [World.forDay, installed, eq_dateMap built]
      exact holidayOf_dateMap holidays day
  orderless := by
    intro call rows others now next last same ran also
    obtain ⟨holidays, replacement, returned, built, -, installed⟩ := refresh_eq_some ran
    obtain ⟨holidays', replacement', returned', built', -, installed'⟩ := refresh_eq_some also
    have members : ∀ holiday, holiday ∈ holidays ↔ holiday ∈ holidays' := by
      obtain ⟨_, read, later⟩ := bind_eq_ok.mp returned
      obtain ⟨_, read', later'⟩ := bind_eq_ok.mp returned'
      obtain rfl := Except.ok.inj (raiseIf_bind_eq_ok.mp later).2
      obtain rfl := Except.ok.inj (raiseIf_bind_eq_ok.mp later').2
      intro holiday
      rw [mem_of_mapM_eq_ok read, mem_of_mapM_eq_ok read']
      simp only [same.mem_iff]
    funext day
    rw [World.forDay, World.forDay, installed, installed', eq_dateMap built, eq_dateMap built',
      dateMap_congr (readResponse_distinct returned') members]
  fails := by
    intro call response now error landed next failed ran
    obtain ⟨fetched, taken, ran⟩ := Option.bind_eq_some_iff.mp ran
    obtain ⟨last, taken', ran⟩ := Option.bind_eq_some_iff.mp ran
    obtain rfl := Option.some.inj ran
    simp only [Calendar.step] at taken
    split at taken
    swap
    · cases taken
    obtain rfl := Option.some.inj taken
    simp only [Calendar.step, become_self, prepare, failed] at taken'
    obtain rfl := Option.some.inj taken'
    exact ⟨rfl, rfl, fun landed => if_pos landed⟩
  settled := by
    intro idle world reachable finished
    have begins : Sound site start start :=
      ⟨fun call => by rw [idle call]; trivial, .inr (.inr ⟨rfl, rfl⟩)⟩
    have sound : Sound site start world := reachable.invariant begins
      fun _ _ _ sound inOrder taken => Sound.step sound inOrder taken
    refine sound.installed.resolve_left ?_
    rintro ⟨call, replacement, built⟩
    cases (finished call).symm.trans built

/-- A year of one-day holidays, at a plant in UTC. -/
private def plant : Site := ⟨fun text => if text = "5" then some 5 else some 7, some, 400⟩

private def empty : World := ⟨∅, ∅, ⟨none, none, none⟩, fun _ => .idle⟩

private def holidayOn (day : String) : Response :=
  .rows [.mapping (.int 1) (.text "Holiday") (.text day) (.text day)]

/-- The holiday moves from day 5 to day 7 in Odoo, and the first refresh installs last. -/
theorem older_map_installed : ¬∀ (site : Site) (start : World),
    Mirrors (fun _ _ => True) site start := by
  intro mirrors
  obtain ⟨world, ran, finished, rows, days⟩ : ∃ world, run (step plant) empty
      [.fetch 0 (holidayOn "5") 1, .fetch 1 (holidayOn "7") 2, .commit 0 none, .commit 1 none,
        .install 1, .install 0] = some world ∧ (∀ call, world.calls call = .idle) ∧
        ((buildDateMap plant world.rows).map SortedMap.keys) = some [7] ∧
          world.holidaysByDay.keys = [5] := by
    refine ⟨_, rfl, fun call => ?_, by decide +kernel, by decide +kernel⟩
    match call with
    | 0 | 1 | _ + 2 => rfl
  rcases (mirrors plant empty).settled (fun _ => rfl) world
      (Reachable.initial.run (fun _ _ _ => trivial) ran) finished with built | ⟨-, same⟩
  · rw [built, Option.map_some, days] at rows
    cases rows
  · rw [same] at days
    cases days

end PlantManager.Calendar

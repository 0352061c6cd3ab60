import PlantManager.Staffing.ScheduleCache

/-! # What the schedule cache serves

As long as a save or a removal commits while the day has no cache entry and no load is between its
queries, and a load stores nothing that such a write has made stale, a load returns the contents
of a commit no older than the writes that had returned when it began:
`Staffing.Cache.loads_fresh`. `Staffing.Cache.stale_served` is a run in
which a saved schedule is never seen.
-/

namespace PlantManager.Staffing.Cache

open Transition

variable {S H : Type*}

/-- A schedule is the contents after a commit. -/
def AsOf (roster : Roster) (history : List (Option (Stored H))) (version : ℕ)
    (schedule : Schedule H) : Prop :=
  ∃ contents, history[version]? = some contents ∧ schedule = contentsOf roster contents

/-- Each load returned what a commit left that is no older than the latest whose call had
returned when the load began. -/
def Fresh (roster : Roster) (state : State S H) : Prop :=
  ∀ entry ∈ state.served, ∃ version, entry.1 ≤ version ∧
    AsOf roster state.history version entry.2

def Session.BetweenQueries : Session H → Prop
  | .readRow _ _ _ | .readAssignments _ _ _ _ => True
  | _ => False

instance : ∀ session : Session H, Decidable session.BetweenQueries
  | .readRow _ _ _ => isTrue trivial
  | .readAssignments _ _ _ _ => isTrue trivial
  | .idle => isFalse id
  | .missed _ => isFalse id
  | .loaded _ _ _ => isFalse id
  | .saving _ => isFalse id
  | .removing _ => isFalse id
  | .removingInvalidated _ => isFalse id
  | .written _ => isFalse id
  | .done _ => isFalse id

/-- The commits after `version` are all still to invalidate the entry. -/
def StillToInvalidate (settled : ℕ) : Session H → Prop
  | .loaded _ version _ => settled ≤ version
  | _ => True

instance (settled : ℕ) : ∀ session : Session H, Decidable (StillToInvalidate settled session)
  | .loaded _ version _ => inferInstanceAs (Decidable (settled ≤ version))
  | .readRow _ _ _ => isTrue trivial
  | .readAssignments _ _ _ _ => isTrue trivial
  | .idle => isTrue trivial
  | .missed _ => isTrue trivial
  | .saving _ => isTrue trivial
  | .removing _ => isTrue trivial
  | .removingInvalidated _ => isTrue trivial
  | .written _ => isTrue trivial
  | .done _ => isTrue trivial

/-- A write that invalidates before its commit finds no entry and no load between its queries,
and a load does not store what a write has changed that invalidates no more. -/
def Undisturbed (state : State S H) : Action S H → Prop
  | .saveCommit _ | .removeCommit _ =>
      state.cache = none ∧ ∀ session, ¬(state.sessions session).BetweenQueries
  | .store session => StillToInvalidate state.settled (state.sessions session)
  | _ => True

instance [Fintype S] [DecidableEq H] (state : State S H) :
    ∀ action, Decidable (Undisturbed state action)
  | .saveCommit _ => inferInstanceAs (Decidable (_ ∧ _))
  | .removeCommit _ => inferInstanceAs (Decidable (_ ∧ _))
  | .store session =>
      inferInstanceAs (Decidable (StillToInvalidate state.settled (state.sessions session)))
  | .load _ => isTrue trivial
  | .readRow _ => isTrue trivial
  | .readAssignments _ => isTrue trivial
  | .readNotes _ => isTrue trivial
  | .save _ _ => isTrue trivial
  | .createCommit _ _ => isTrue trivial
  | .recordCommit _ _ _ => isTrue trivial
  | .invalidate _ => isTrue trivial
  | .remove _ _ => isTrue trivial
  | .removeInvalidate _ => isTrue trivial
  | .leave _ => isTrue trivial
  | .abandon _ => isTrue trivial

/-! ## The invariant -/

/-- What a call knows. Between its queries, the tables still hold the rows that belong to the row
it has read. -/
def SessionKnows (roster : Roster) (history : List (Option (Stored H)))
    (contents : Option (Stored H)) (settled : ℕ) : Session H → Prop
  | .missed floor => floor < history.length
  | .readRow floor version row => floor ≤ version ∧ ∃ stored now,
      history[version]? = some (some stored) ∧ stored.row = row ∧ contents = some now ∧
      now.assignments = stored.assignments ∧ now.wcNotes = stored.wcNotes
  | .readAssignments floor version row assignments => floor ≤ version ∧ ∃ stored now,
      history[version]? = some (some stored) ∧ stored.row = row ∧ contents = some now ∧
      assignments = stored.assignments ∧ now.wcNotes = stored.wcNotes
  | .loaded floor version schedule => floor ≤ version ∧ AsOf roster history version schedule
  | .written commit => commit < history.length
  | .done commit => commit ≤ settled
  | .idle | .saving _ | .removing _ | .removingInvalidated _ => True

structure Inv (roster : Roster) (state : State S H) : Prop where
  current : state.history[state.version]? = some state.contents
  settled : state.settled < state.history.length
  returned : state.returned ≤ state.settled
  cached : ∀ schedule, state.cache = some schedule →
    ∃ version, state.settled ≤ version ∧ AsOf roster state.history version schedule
  sessions : ∀ session, SessionKnows roster state.history state.contents state.settled
    (state.sessions session)
  fresh : Fresh roster state

theorem getElem?_append_of_some {α : Type*} {items more : List α} {index : ℕ} {item : α}
    (found : items[index]? = some item) : (items ++ more)[index]? = some item := by
  obtain ⟨inside, -⟩ := List.getElem?_eq_some_iff.mp found
  rw [List.getElem?_append_left inside, found]

theorem AsOf.append {roster : Roster} {history : List (Option (Stored H))} {version : ℕ}
    {schedule : Schedule H} (asOf : AsOf roster history version schedule)
    (contents : Option (Stored H)) : AsOf roster (history ++ [contents]) version schedule := by
  obtain ⟨before, found, same⟩ := asOf
  exact ⟨before, getElem?_append_of_some found, same⟩

theorem inv_initial (roster : Roster) (contents : Option (Stored H)) :
    Inv roster (State.initial S contents) where
  current := rfl
  settled := Nat.one_pos
  returned := Nat.le_refl 0
  cached := fun _ found => nomatch found
  sessions := fun _ => trivial
  fresh := List.forall_mem_nil _

theorem Inv.goto [DecidableEq S] {roster : Roster} {state : State S H} (inv : Inv roster state)
    {session : S} {place : Session H}
    (knows : SessionKnows roster state.history state.contents state.settled place) :
    Inv roster (state.goto session place) where
  current := inv.current
  settled := inv.settled
  returned := inv.returned
  cached := inv.cached
  sessions := by
    intro other
    change SessionKnows roster state.history state.contents state.settled
      (Function.update state.sessions session place other)
    by_cases same : other = session
    · rw [same, Function.update_self]
      exact knows
    · rw [Function.update_of_ne same]
      exact inv.sessions other
  fresh := inv.fresh

theorem Inv.clear {roster : Roster} {state : State S H} (inv : Inv roster state) :
    Inv roster { state with cache := none } :=
  { inv with cached := fun _ found => nomatch found }

theorem Inv.lock {roster : Roster} {state : State S H} (inv : Inv roster state)
    (lockedBy : Option S) : Inv roster { state with lockedBy := lockedBy } :=
  { inv with }

/-- A commit keeps what the calls know, if none is between its queries or the rows of the work
centers stay. -/
theorem Inv.commit {roster : Roster} {state : State S H} (inv : Inv roster state)
    {contents : Option (Stored H)}
    (kept : (∀ session, ¬(state.sessions session).BetweenQueries) ∨
      ∀ now, state.contents = some now → ∃ next, contents = some next ∧
        next.assignments = now.assignments ∧ next.wcNotes = now.wcNotes) :
    Inv roster (state.commit contents) where
  current := by
    change (state.history ++ [contents])[(state.history ++ [contents]).length - 1]? = _
    rw [List.length_append, List.length_singleton, Nat.add_sub_cancel]
    exact List.getElem?_concat_length
  settled := by
    change state.settled < (state.history ++ [contents]).length
    rw [List.length_append]
    exact Nat.lt_add_right _ inv.settled
  returned := inv.returned
  cached := fun schedule found =>
    (inv.cached schedule found).imp fun _ later => later.imp_right fun asOf => asOf.append contents
  sessions := by
    intro session
    have knows := inv.sessions session
    change SessionKnows roster (state.history ++ [contents]) contents state.settled
      (state.sessions session)
    have stays : (state.sessions session).BetweenQueries → ∀ now, state.contents = some now →
        ∃ next, contents = some next ∧ next.assignments = now.assignments ∧
          next.wcNotes = now.wcNotes :=
      fun between => kept.resolve_left fun none => none session between
    have longer : state.history.length < (state.history ++ [contents]).length := by
      rw [List.length_append]
      exact Nat.lt_add_one _
    revert knows stays
    cases state.sessions session with
    | missed floor | written commit => exact fun knows _ => Nat.lt_trans knows longer
    | readRow floor version row =>
        rintro ⟨later, stored, now, found, rfl, current, assigned, noted⟩ stays
        obtain ⟨next, rfl, sameAssigned, sameNoted⟩ := stays trivial now current
        exact ⟨later, stored, next, getElem?_append_of_some found, rfl, rfl,
          sameAssigned.trans assigned, sameNoted.trans noted⟩
    | readAssignments floor version row assignments =>
        rintro ⟨later, stored, now, found, rfl, current, assigned, noted⟩ stays
        obtain ⟨next, rfl, -, sameNoted⟩ := stays trivial now current
        exact ⟨later, stored, next, getElem?_append_of_some found, rfl, rfl, assigned,
          sameNoted.trans noted⟩
    | loaded floor version schedule =>
        exact fun knows _ => knows.imp_right fun asOf => asOf.append contents
    | done commit => exact fun knows _ => knows
    | idle | saving _ | removing _ | removingInvalidated _ => exact fun _ _ => trivial
  fresh := fun entry member =>
    (inv.fresh entry member).imp fun _ later => later.imp_right fun asOf => asOf.append contents

/-- While the day has no entry, a commit may settle. -/
theorem Inv.settle {roster : Roster} {state : State S H} (inv : Inv roster state) {commit : ℕ}
    (empty : state.cache = none) (later : state.settled ≤ commit)
    (made : commit < state.history.length) :
    Inv roster { state with settled := commit } where
  current := inv.current
  settled := made
  returned := inv.returned.trans later
  cached := fun schedule found => by
    rw [empty] at found
    cases found
  sessions := by
    intro session
    have knows := inv.sessions session
    revert knows
    cases state.sessions session with
    | done settled => exact fun knows => Nat.le_trans knows later
    | missed _ | readRow _ _ _ | readAssignments _ _ _ _ | loaded _ _ _ | written _ | idle
    | saving _ | removing _ | removingInvalidated _ => exact id
  fresh := inv.fresh

theorem Inv.version_lt {roster : Roster} {state : State S H} (inv : Inv roster state) :
    state.version < state.history.length :=
  (List.getElem?_eq_some_iff.mp inv.current).1

/-! ## Steps -/

section Steps

variable [DecidableEq S] {roster : Roster} {state next : State S H}

variable {session : S}

section

variable (inv : Inv roster state)
include inv

theorem inv_load (taken : step roster state (.load session) = some next) : Inv roster next := by
  dsimp only [step] at taken
  split at taken
  · rename_i schedule place found
    obtain rfl := Option.some.inj taken
    refine { inv with fresh := ?_ }
    obtain ⟨version, later, asOf⟩ := inv.cached schedule found
    exact List.forall_mem_cons.mpr ⟨⟨version, inv.returned.trans later, asOf⟩, inv.fresh⟩
  · obtain rfl := Option.some.inj taken
    apply inv.goto
    exact Nat.lt_of_le_of_lt inv.returned inv.settled
  · cases taken

theorem inv_readRow (taken : step roster state (.readRow session) = some next) :
    Inv roster next := by
  have knows := inv.sessions session
  dsimp only [step] at taken
  split at taken
  · rename_i floor place empty
    obtain rfl := Option.some.inj taken
    rw [place] at knows
    apply inv.goto
    exact ⟨Nat.le_sub_one_of_lt knows, state.contents, inv.current, by rw [empty]; rfl⟩
  · rename_i floor stored place found
    obtain rfl := Option.some.inj taken
    rw [place] at knows
    apply inv.goto
    exact ⟨Nat.le_sub_one_of_lt knows, stored, stored, found ▸ inv.current, rfl, found, rfl, rfl⟩
  · cases taken

theorem inv_readAssignments (taken : step roster state (.readAssignments session) = some next) :
    Inv roster next := by
  have knows := inv.sessions session
  dsimp only [step] at taken
  split at taken
  · rename_i floor version row now place current
    obtain rfl := Option.some.inj taken
    rw [place] at knows
    obtain ⟨later, stored, own, found, rfl, same, assigned, noted⟩ := knows
    obtain rfl := Option.some.inj (current.symm.trans same)
    apply inv.goto
    exact ⟨later, stored, now, found, rfl, current, assigned, noted⟩
  · rename_i place current
    rw [place] at knows
    obtain ⟨-, -, own, -, -, same, -⟩ := knows
    rw [current] at same
    cases same
  · cases taken

theorem inv_readNotes (taken : step roster state (.readNotes session) = some next) :
    Inv roster next := by
  have knows := inv.sessions session
  dsimp only [step] at taken
  split at taken
  · rename_i floor version row assignments place
    obtain rfl := Option.some.inj taken
    rw [place] at knows
    obtain ⟨later, stored, now, found, rfl, current, rfl, noted⟩ := knows
    apply inv.goto
    refine ⟨later, some stored, found, ?_⟩
    rw [current]
    exact congrArg (hydrate roster stored.row stored.assignments) noted
  · cases taken

theorem inv_store (undisturbed : Undisturbed state (.store session : Action S H))
    (taken : step roster state (.store session) = some next) : Inv roster next := by
  have knows := inv.sessions session
  dsimp only [Undisturbed] at undisturbed
  dsimp only [step] at taken
  split at taken
  · rename_i floor version schedule place
    obtain rfl := Option.some.inj taken
    rw [place] at knows undisturbed
    have returned : Inv roster (state.goto session .idle) := inv.goto trivial
    refine { returned with cached := fun cached found => ?_, fresh := ?_ }
    · obtain rfl := Option.some.inj found
      exact ⟨version, undisturbed, knows.2⟩
    · exact List.forall_mem_cons.mpr ⟨⟨version, knows.1, knows.2⟩, inv.fresh⟩
  · cases taken

/-- A save that nothing disturbs settles. -/
theorem Inv.saved (empty : state.cache = none)
    (between : ∀ session, ¬(state.sessions session).BetweenQueries) (session : S)
    (saved : Option (Stored H)) :
    Inv roster { (state.commit saved).goto session (.done state.history.length) with
      settled := state.history.length } := by
  have committed : Inv roster (state.commit saved) := inv.commit (.inl between)
  have made : state.history.length < (state.commit saved).history.length := by
    change _ < (state.history ++ [saved]).length
    rw [List.length_append]
    exact Nat.lt_add_one _
  exact (committed.settle empty inv.settled.le made).goto (Nat.le_refl _)

theorem inv_saveCommit (undisturbed : Undisturbed state (.saveCommit session : Action S H))
    (taken : step roster state (.saveCommit session) = some next) : Inv roster next := by
  dsimp only [step] at taken
  split at taken
  · split at taken
    · exact Option.some.inj taken ▸ inv.saved undisturbed.1 undisturbed.2 session _
    · cases taken
  · cases taken

theorem inv_createCommit {schedule : Schedule H}
    (taken : step roster state (.createCommit session schedule) = some next) : Inv roster next := by
  dsimp only [step] at taken
  split at taken
  · obtain rfl := Option.some.inj taken
    exact inv.goto inv.version_lt
  · rename_i absent
    obtain ⟨-, rfl⟩ := Option.ite_some_none_eq_some.mp taken
    -- Where there is no row, no load is between its queries.
    have committed := @Inv.commit _ _ roster state inv (some (storedOf roster schedule))
      (.inr fun now found => by rw [absent] at found; cases found)
    apply committed.goto
    change _ < (state.history ++ [_]).length
    rw [List.length_append]
    exact Nat.lt_add_one _
  · cases taken

theorem inv_recordCommit {version : String} {patch : Delivery}
    (taken : step roster state (.recordCommit session version patch) = some next) :
    Inv roster next := by
  dsimp only [step] at taken
  split at taken
  · split at taken
    · obtain rfl := Option.some.inj taken
      have committed := @Inv.commit _ _ roster state inv
        (recordDelivery version patch state.contents) (.inr fun now found => by
          obtain ⟨next, recorded⟩ := recordDelivery_isSome version patch now
          exact ⟨next, found ▸ recorded, assignments_recordDelivery recorded⟩)
      apply committed.goto
      change _ < (state.history ++ [_]).length
      rw [List.length_append]
      exact Nat.lt_add_one _
    · cases taken
  · cases taken

theorem inv_invalidate (taken : step roster state (.invalidate session) = some next) :
    Inv roster next := by
  have knows := inv.sessions session
  dsimp only [step] at taken
  split at taken
  · rename_i commit place
    obtain rfl := Option.some.inj taken
    rw [place] at knows
    have settled := inv.clear.settle rfl (Nat.le_max_left state.settled commit)
      (Nat.max_lt.mpr ⟨inv.settled, knows⟩)
    exact settled.goto (Nat.le_max_right _ _)
  · cases taken

theorem inv_remove {person : String}
    (taken : step roster state (.remove session person) = some next) : Inv roster next := by
  dsimp only [step] at taken
  split at taken
  · split at taken
    · obtain rfl := Option.some.inj taken
      exact (inv.lock (some session)).goto trivial
    · exact Option.some.inj taken ▸ inv
  · exact Option.some.inj taken ▸ inv
  · cases taken

theorem inv_removeCommit (undisturbed : Undisturbed state (.removeCommit session : Action S H))
    (taken : step roster state (.removeCommit session) = some next) : Inv roster next := by
  dsimp only [step] at taken
  split at taken
  · split at taken
    · obtain rfl := Option.some.inj taken
      exact (inv.saved undisturbed.1 undisturbed.2 session _).lock none
    · cases taken
  · cases taken

theorem inv_leave {session : S} (taken : step roster state (.leave session) = some next) :
    Inv roster next := by
  have knows := inv.sessions session
  dsimp only [step] at taken
  split at taken
  · rename_i commit place
    obtain rfl := Option.some.inj taken
    rw [place] at knows
    have idle : Inv roster (state.goto session .idle) := inv.goto trivial
    exact { idle with returned := Nat.max_le.mpr ⟨inv.returned, knows⟩ }
  · cases taken

theorem inv_abandon (taken : step roster state (.abandon session) = some next) :
    Inv roster next := by
  have idle : Inv roster (state.goto session .idle) := inv.goto trivial
  dsimp only [step] at taken
  split at taken
  all_goals first
    | exact Option.some.inj taken ▸ idle
    | exact Option.some.inj taken ▸ idle.lock none
    | cases taken

theorem inv_step {action : Action S H} (undisturbed : Undisturbed state action)
    (taken : step roster state action = some next) : Inv roster next := by
  cases action with
  | load session => exact inv_load inv taken
  | readRow session => exact inv_readRow inv taken
  | readAssignments session => exact inv_readAssignments inv taken
  | readNotes session => exact inv_readNotes inv taken
  | store session => exact inv_store inv undisturbed taken
  | save session schedule | removeInvalidate session =>
      dsimp only [step] at taken
      split at taken
      · exact Option.some.inj taken ▸ inv.clear.goto trivial
      · cases taken
  | saveCommit session => exact inv_saveCommit inv undisturbed taken
  | createCommit session schedule => exact inv_createCommit inv taken
  | recordCommit session version patch => exact inv_recordCommit inv taken
  | invalidate session => exact inv_invalidate inv taken
  | remove session person => exact inv_remove inv taken
  | removeCommit session => exact inv_removeCommit inv undisturbed taken
  | leave session => exact inv_leave inv taken
  | abandon session => exact inv_abandon inv taken

end

end Steps

/-! ## Runs -/

theorem loads_fresh [DecidableEq S] (roster : Roster) (contents : Option (Stored H))
    (state : State S H)
    (reachable : Reachable (State.initial S contents) (step roster) Undisturbed state) :
    Fresh roster state :=
  (reachable.invariant (inv_initial roster contents) fun _ _ _ inv undisturbed taken =>
    inv_step inv undisturbed taken).fresh

/-- A load begins after a save has invalidated the entry and ends before it commits. -/
def loadDuringSave : List (Action Bool Unit) :=
  [.save true { emptySchedule with notes := "Inventory" }, .load false, .readRow false,
    .store false, .saveCommit true, .leave true, .load false]

def noNames : Roster := ⟨[], [], []⟩

theorem stale_served :
    ¬∀ state : State Bool Unit, Reachable (State.initial Bool none) (step noNames)
      (fun _ _ => True) state → Fresh noNames state := by
  intro fresh
  obtain ⟨state, ran, history, served⟩ : ∃ state : State Bool Unit,
      run (step noNames) (State.initial Bool none) loadDuringSave = some state ∧
      state.history = [none, some (storedOf noNames { emptySchedule with notes := "Inventory" })] ∧
      (1, emptySchedule) ∈ state.served :=
    ⟨_, rfl, rfl, List.mem_cons_self⟩
  have reachable := Reachable.initial.run (fun _ _ _ => trivial) ran
  obtain ⟨version, later, contents, found, same⟩ := fresh state reachable _ served
  rw [history] at found
  match version, later with
  | 1, _ =>
      obtain rfl := Option.some.inj found
      exact absurd (congrArg Schedule.notes same) (by decide)

/-- The same calls, one after the other. -/
def loadAfterSave : List (Action Bool Unit) :=
  [.save true { emptySchedule with notes := "Inventory" }, .saveCommit true, .leave true,
    .load false, .readRow false, .readAssignments false, .readNotes false, .store false,
    .load false]

theorem loads_fresh_loadAfterSave :
    ∃ state : State Bool Unit,
      run (step noNames) (State.initial Bool none) loadAfterSave = some state ∧
      state.served.length = 2 ∧ Fresh noNames state := by
  refine ⟨_, rfl, rfl, ?_⟩
  apply loads_fresh noNames none
  have permitted : Permitted (step noNames) Undisturbed (State.initial Bool none) loadAfterSave := by
    decide
  exact Reachable.initial.run_permitted permitted rfl

end PlantManager.Staffing.Cache

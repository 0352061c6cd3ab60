import PlantManager.Timeclock.AutoLunch

/-! # What the lunch sign-out may do

`Timeclock.AutoLunch.autoLunch_safe`: as long as no sweep goes on to an employee
who ended the run after the sweep read it, at a time when the sign-in was due, each punch is
written at most once and in order, no sign-in follows the employee's sign-out, and a finished
run stays as it is. `Timeclock.AutoLunch.autoLunch_overrides_employee` is a run in
which a sweep signs the employee in again.
-/

namespace PlantManager.Timeclock.AutoLunch

open PlantManager.Transition

variable {C : Type*}

def Event.written : Event C → Option PunchAction
  | .wrote action => some action
  | .noted _ => none

/-- What holds in a state of a run, and what every permitted step from it keeps. -/
structure Safe [DecidableEq C] (permitted : State C → Action C → Prop) (state : State C) :
    Prop where
  outOnce : (state.punches.map Punch.action).count .clockOut ≤ 1
  inOnce : (state.punches.map Punch.action).count .clockIn ≤ 1
  /-- The history tells of each punch. -/
  written : state.history.filterMap Event.written = state.punches.map Punch.action
  inAfterOut : ∀ later earlier, state.history = later ++ .wrote .clockIn :: earlier →
    .wrote .clockOut ∈ earlier
  inBeforeNoted : ∀ later earlier, state.history = later ++ .wrote .clockIn :: earlier →
    ∀ call, .noted call ∉ earlier
  terminal : ∀ action next, permitted state action → step state action = some next →
    (stateOf state.row).Terminal → stateOf next.row = stateOf state.row

/-- A sweep that read a run whose sign-in was due does not go on once the employee has
ended it. -/
def GoesOn (state : State C) : Action C → Prop
  | .sweepApply =>
      ∀ sweep ∈ state.sweep, stateOf sweep.snapshot = .autoOut →
        ∀ window ∈ windowFor sweep.inputs sweep.snapshot, window.inAt ≤ sweep.inputs.now →
          stateOf state.row ≠ .endedByEmployee
  | _ => True

instance : ∀ (state : State C) (action : Action C), Decidable (GoesOn state action)
  | state, .sweepApply => inferInstanceAs (Decidable (∀ sweep ∈ state.sweep, _))
  | _, .sweepRead _ => isTrue trivial
  | _, .sweepLeave => isTrue trivial
  | _, .noteBegin _ _ => isTrue trivial
  | _, .noteRead _ => isTrue trivial
  | _, .noteUpdate _ => isTrue trivial
  | _, .noteLeave _ => isTrue trivial

/-! ## Decisions -/

theorem advancePerson_cases {inputs : Inputs} {run : Option Run} {window : Window}
    {transition : Transition} (live : inputs.settings.observeOnly = false)
    (advanced : advancePerson inputs run = some (window, transition)) :
    (stateOf run = .pending ∧ (transition = ⟨.autoOut, some .clockOut, some window.outAt⟩ ∨
      transition = ⟨.skipped, none, none⟩)) ∨
    (stateOf run = .autoOut ∧ window ∈ windowFor inputs run ∧ window.inAt ≤ inputs.now ∧
      (transition = ⟨.done, none, none⟩ ∨
        transition = ⟨.done, some .clockIn, some window.inAt⟩)) := by
  unfold advancePerson at advanced
  split at advanced
  · cases advanced
  · rename_i own found
    obtain ⟨open_, advanced⟩ := Option.ite_none_left_eq_some.mp advanced
    simp only [live, Bool.false_eq_true, false_and, if_false] at advanced
    split at advanced
    · cases advanced
    · rename_i moved
      obtain ⟨rfl, rfl⟩ := Prod.mk.inj (Option.some.inj advanced)
      generalize stateOf run = before at *
      cases before with
      | pending =>
          refine Or.inl ⟨rfl, ?_⟩
          by_cases due : own.outAt ≤ inputs.now
          · by_cases clockedIn : inputs.isClockedIn
            · exact Or.inl (by simp [decide, due, clockedIn])
            · exact Or.inr (by simp [decide, due, clockedIn])
          · exact absurd (by simp [decide, due]) moved
      | autoOut =>
          by_cases due : own.inAt ≤ inputs.now
          · refine Or.inr ⟨rfl, found, due, ?_⟩
            by_cases clockedIn : inputs.isClockedIn
            · exact Or.inl (by simp [decide, due, clockedIn])
            · exact Or.inr (by simp [decide, due, clockedIn])
          · exact absurd (by simp [decide, due]) moved
      | done => exact absurd (Or.inl rfl) open_
      | skipped => exact absurd (Or.inr (Or.inl rfl)) open_
      | endedByEmployee => exact absurd (Or.inr (Or.inr rfl)) open_

theorem stateOf_upsertRun (row : Option Run) (written : Run) :
    stateOf (some (upsertRun row written)) = written.state := by
  cases row <;> rfl

/-- A live sweep writes the state and the punch of its decision. -/
theorem applied_eq {inputs : Inputs} {run : Option Run} {window : Window}
    {transition : Transition} (live : inputs.settings.observeOnly = false)
    (advanced : advancePerson inputs run = some (window, transition)) (punchId : ℕ) :
    (applied inputs run window transition punchId).1.state = transition.newState ∧
      (applied inputs run window transition punchId).2.map Punch.action = transition.action := by
  rcases advancePerson_cases live advanced with ⟨-, rfl | rfl⟩ | ⟨-, -, -, rfl | rfl⟩ <;>
    simp [applied, live, blankRun]

/-! ## What holds in every state of a run -/

/-- How many sign-outs a run in this state has written. -/
def RunState.outs : RunState → ℕ
  | .pending => 0
  | .skipped => 0
  | _ => 1

/-- How many sign-ins a run in this state has written at most. -/
def RunState.ins : RunState → ℕ
  | .done => 1
  | _ => 0

structure Tracked (state : State C) : Prop where
  outs : (state.punches.map Punch.action).count .clockOut = (stateOf state.row).outs
  ins : (state.punches.map Punch.action).count .clockIn ≤ (stateOf state.row).ins
  written : state.history.filterMap Event.written = state.punches.map Punch.action
  inAfterOut : ∀ later earlier, state.history = later ++ .wrote .clockIn :: earlier →
    .wrote .clockOut ∈ earlier
  inBeforeNoted : ∀ later earlier, state.history = later ++ .wrote .clockIn :: earlier →
    ∀ call, .noted call ∉ earlier
  noted : ∀ call, .noted call ∈ state.history → (stateOf state.row).Terminal
  active : ∀ call, state.calls call = .active → (stateOf state.row).outs = 1
  live : ∀ sweep ∈ state.sweep, sweep.inputs.settings.observeOnly = false
  /-- Since a sweep read the row, the employee at most ended the run. -/
  sweep : ∀ sweep ∈ state.sweep, sweep.snapshot = state.row ∨
    (stateOf sweep.snapshot = .autoOut ∧ stateOf state.row = .endedByEmployee)

theorem tracked_initial : Tracked (State.initial C) := by
  constructor <;> simp [State.initial, stateOf, RunState.outs, RunState.ins]

namespace Tracked

variable {state : State C}

theorem mem_history (tracked : Tracked state) {action : PunchAction}
    (wrote : 0 < (state.punches.map Punch.action).count action) : .wrote action ∈ state.history := by
  have member := List.count_pos_iff.mp wrote
  rw [← tracked.written] at member
  obtain ⟨event, happened, same⟩ := List.mem_filterMap.mp member
  cases event with
  | wrote other => exact Option.some.inj same ▸ happened
  | noted call => cases same

/-- A sweep that leaves keeps what holds. -/
theorem leave (tracked : Tracked state) : Tracked { state with sweep := none } :=
  { tracked with
    live := fun _ impossible => absurd impossible (Option.not_mem_none _)
    sweep := fun _ impossible => absurd impossible (Option.not_mem_none _) }

/-- Where a sign-in stands in a history that a decision has added to. -/
theorem signIn_cases {action : Option PunchAction} {history later earlier : List (Event C)}
    (same : action.toList.map .wrote ++ history = later ++ .wrote .clockIn :: earlier) :
    (action = some .clockIn ∧ earlier = history) ∨
      ∃ later', history = later' ++ .wrote .clockIn :: earlier := by
  cases action with
  | none => exact Or.inr ⟨later, same⟩
  | some written =>
      cases later with
      | nil =>
          obtain ⟨first, rest⟩ := List.cons.inj same
          exact Or.inl ⟨congrArg some (Event.wrote.inj first), rest.symm⟩
      | cons event later' => exact Or.inr ⟨later', (List.cons.inj same).2⟩

section Calls

variable [DecidableEq C]

/-- A call that begins, reads or leaves keeps what holds. -/
theorem become (tracked : Tracked state) (call : C) {phase : NoteCall}
    (waits : phase = .active → (stateOf state.row).outs = 1) : Tracked (state.become call phase) :=
  { tracked with
    active := by
      intro other active
      change Function.update state.calls call phase other = .active at active
      by_cases same : other = call
      · subst same
        rw [Function.update_self] at active
        exact waits active
      · rw [Function.update_of_ne same] at active
        exact tracked.active other active }

end Calls

/-- The employee ends the run. -/
theorem ends (tracked : Tracked state) (call : C) (active : (stateOf state.row).outs = 1) :
    Tracked { state with row := endRun state.row, history := .noted call :: state.history } := by
  have row : (stateOf state.row = .autoOut ∧ stateOf (endRun state.row) = .endedByEmployee) ∨
      ((stateOf state.row).Terminal ∧ endRun state.row = state.row) := by
    cases stored : state.row with
    | none => rw [stored] at active; cases active
    | some run =>
        rw [stored] at active
        change run.state.outs = 1 at active
        cases waits : run.state with
        | autoOut => exact Or.inl ⟨waits, by simp [endRun, waits, stateOf]⟩
        | pending | skipped => rw [waits] at active; cases active
        | done =>
            exact Or.inr ⟨Or.inl waits, by simp [endRun, waits]⟩
        | endedByEmployee => exact Or.inr ⟨Or.inr (Or.inr waits), by simp [endRun, waits]⟩
  have split : ∀ later earlier,
      Event.noted call :: state.history = later ++ Event.wrote PunchAction.clockIn :: earlier →
      ∃ later', state.history = later' ++ .wrote .clockIn :: earlier := by
    intro later earlier same
    cases later with
    | nil => cases same
    | cons event later' => exact ⟨later', (List.cons.inj same).2⟩
  exact {
    outs := by
      rcases row with ⟨waits, ended⟩ | ⟨-, kept⟩
      · change _ = (stateOf (endRun state.row)).outs
        rw [ended, tracked.outs, waits]
        rfl
      · change _ = (stateOf (endRun state.row)).outs
        rw [kept, tracked.outs]
    ins := by
      rcases row with ⟨waits, ended⟩ | ⟨-, kept⟩
      · have before := tracked.ins
        rw [waits] at before
        rw [ended]
        exact before
      · change _ ≤ (stateOf (endRun state.row)).ins
        rw [kept]
        exact tracked.ins
    written := tracked.written
    inAfterOut := by
      intro later earlier same
      obtain ⟨later', happened⟩ := split later earlier same
      exact tracked.inAfterOut later' earlier happened
    inBeforeNoted := by
      intro later earlier same
      obtain ⟨later', happened⟩ := split later earlier same
      exact tracked.inBeforeNoted later' earlier happened
    noted := by
      intro _ _
      rcases row with ⟨-, ended⟩ | ⟨terminal, kept⟩
      · exact Or.inr (Or.inr ended)
      · rwa [kept]
    active := by
      intro _ _
      rcases row with ⟨-, ended⟩ | ⟨-, kept⟩
      · rw [ended]
        rfl
      · rwa [kept]
    live := tracked.live
    sweep := by
      intro sweep member
      rcases row with ⟨waits, ended⟩ | ⟨-, kept⟩
      · rcases tracked.sweep sweep member with same | ⟨_, already⟩
        · exact Or.inr ⟨same ▸ waits, ended⟩
        · exact absurd (waits.symm.trans already) nofun
      · rw [kept]
        exact tracked.sweep sweep member }

/-- A sweep that finds the row as it read it applies its decision. -/
theorem store (tracked : Tracked state) {inputs : Inputs} {window : Window}
    {transition : Transition} (live : inputs.settings.observeOnly = false)
    (advanced : advancePerson inputs state.row = some (window, transition)) :
    Tracked { state.store (applied inputs state.row window transition state.nextPunchId) with
      sweep := none } := by
  obtain ⟨newState, action⟩ := applied_eq live advanced state.nextPunchId
  generalize applied inputs state.row window transition state.nextPunchId = written at *
  have row : stateOf (some (upsertRun state.row written.1)) = transition.newState :=
    (stateOf_upsertRun _ _).trans newState
  have open_ : ¬(stateOf state.row).Terminal := by
    rcases advancePerson_cases live advanced with ⟨pending, -⟩ | ⟨waits, -⟩
    · rw [pending]
      decide
    · rw [waits]
      decide
  have unnoted : ∀ call, .noted call ∉ state.history := fun call happened =>
    open_ (tracked.noted call happened)
  have actions : (written.2.toList ++ state.punches).map Punch.action =
      transition.action.toList ++ state.punches.map Punch.action := by
    rw [List.map_append, ← action]
    cases written.2 <;> rfl
  have happened : (written.2.toList.map fun punch => (.wrote punch.action : Event C)) =
      transition.action.toList.map .wrote := by
    rw [← action]
    cases written.2 <;> rfl
  have outs : transition.action.toList.count .clockOut + (stateOf state.row).outs =
      transition.newState.outs := by
    rcases advancePerson_cases live advanced with ⟨before, rfl | rfl⟩ | ⟨before, -, -, rfl | rfl⟩ <;>
      rw [before] <;> rfl
  have ins : transition.action.toList.count .clockIn + (stateOf state.row).ins ≤
      transition.newState.ins := by
    rcases advancePerson_cases live advanced with ⟨before, rfl | rfl⟩ | ⟨before, -, -, rfl | rfl⟩ <;>
      simp [before, RunState.ins]
  have signIn : transition.action = some .clockIn → (stateOf state.row).outs = 1 := by
    rcases advancePerson_cases live advanced with ⟨before, rfl | rfl⟩ | ⟨before, -, -, rfl | rfl⟩ <;>
      simp [before, RunState.outs]
  exact {
    outs := by
      change ((written.2.toList ++ state.punches).map Punch.action).count _ =
        (stateOf (some (upsertRun state.row written.1))).outs
      rw [actions, List.count_append, tracked.outs, row, outs]
    ins := by
      change ((written.2.toList ++ state.punches).map Punch.action).count _ ≤
        (stateOf (some (upsertRun state.row written.1))).ins
      rw [actions, List.count_append, row]
      exact Nat.le_trans (Nat.add_le_add_left tracked.ins _) ins
    written := by
      change (_ ++ state.history).filterMap Event.written =
        (written.2.toList ++ state.punches).map Punch.action
      rw [happened, actions, List.filterMap_append, tracked.written]
      cases transition.action <;> rfl
    inAfterOut := by
      intro later earlier same
      change _ ++ state.history = _ at same
      rw [happened] at same
      rcases signIn_cases same with ⟨wrote, rfl⟩ | ⟨later', before⟩
      · exact tracked.mem_history (by rw [tracked.outs, signIn wrote]; exact Nat.one_pos)
      · exact tracked.inAfterOut later' earlier before
    inBeforeNoted := by
      intro later earlier same
      change _ ++ state.history = _ at same
      rw [happened] at same
      rcases signIn_cases same with ⟨-, rfl⟩ | ⟨later', before⟩
      · exact unnoted
      · exact tracked.inBeforeNoted later' earlier before
    noted := by
      intro call member
      change _ ∈ _ ++ state.history at member
      rcases List.mem_append.mp member with new | old
      · obtain ⟨_, _, impossible⟩ := List.mem_map.mp new
        cases impossible
      · exact absurd old (unnoted call)
    active := by
      intro call active
      change (stateOf (some (upsertRun state.row written.1))).outs = 1
      have before := tracked.active call active
      rw [row, ← outs, before]
      rcases advancePerson_cases live advanced with ⟨pending, -⟩ | ⟨-, -, -, rfl | rfl⟩
      · rw [pending] at before
        cases before
      · rfl
      · rfl
    live := fun _ impossible => absurd impossible (Option.not_mem_none _)
    sweep := fun _ impossible => absurd impossible (Option.not_mem_none _) }

end Tracked

section Step

variable [DecidableEq C] {state next : State C} {action : Action C}

/-- A permitted step of a sweep either leaves or finds the row as the sweep read it. -/
theorem Tracked.apply_cases (tracked : Tracked state) (permitted : GoesOn state .sweepApply)
    (taken : step state .sweepApply = some next) :
    next = { state with sweep := none } ∨
    ∃ inputs window transition, inputs.settings.observeOnly = false ∧
      advancePerson inputs state.row = some (window, transition) ∧
      next = { state.store (applied inputs state.row window transition state.nextPunchId) with
        sweep := none } := by
  obtain ⟨sweep, stored, rfl⟩ := Option.map_eq_some_iff.mp taken
  have live := tracked.live sweep stored
  cases decided : advancePerson sweep.inputs sweep.snapshot with
  | none => exact Or.inl rfl
  | some decision =>
      obtain ⟨window, transition⟩ := decision
      rcases tracked.sweep sweep stored with same | ⟨waits, ended⟩
      · rw [same] at decided ⊢
        exact Or.inr ⟨sweep.inputs, window, transition, live, decided, rfl⟩
      · -- The employee ended the run since, and then the sign-in was not due.
        rcases advancePerson_cases live decided with ⟨pending, -⟩ | ⟨-, found, due, -⟩
        · exact absurd (waits.symm.trans pending) nofun
        · exact absurd ended (permitted sweep stored waits window found due)

theorem tracked_step (tracked : Tracked state) (permitted : GoesOn state action)
    (taken : step state action = some next) : Tracked next := by
  cases action with
  | sweepRead inputs =>
      obtain ⟨free, rfl⟩ := Option.ite_some_none_eq_some.mp taken
      exact {
        tracked with
        live := by
          rintro sweep ⟨⟩
          exact free.2
        sweep := by
          rintro sweep ⟨⟩
          exact Or.inl rfl }
  | sweepApply =>
      rcases tracked.apply_cases permitted taken with rfl | ⟨inputs, window, transition, live, advanced, rfl⟩
      · exact tracked.leave
      · exact tracked.store live advanced
  | sweepLeave => exact Option.some.inj taken ▸ tracked.leave
  | noteBegin call now =>
      simp only [step] at taken
      split at taken
      · exact Option.some.inj taken ▸ tracked.become call nofun
      · cases taken
  | noteRead call =>
      simp only [step] at taken
      split at taken
      · split at taken
        · rename_i gap
          refine Option.some.inj taken ▸ tracked.become call fun _ => ?_
          rw [gap.1]
          rfl
        · exact Option.some.inj taken ▸ tracked.become call nofun
      · cases taken
  | noteUpdate call =>
      simp only [step] at taken
      split at taken
      · rename_i active
        obtain rfl := Option.some.inj taken
        have idle : Tracked (state.become call .idle) := tracked.become call nofun
        exact idle.ends call (tracked.active call active)
      · cases taken
  | noteLeave call => exact Option.some.inj taken ▸ tracked.become call nofun

/-- A finished run stays as it is. -/
theorem Tracked.terminal (tracked : Tracked state) (permitted : GoesOn state action)
    (taken : step state action = some next) (finished : (stateOf state.row).Terminal) :
    stateOf next.row = stateOf state.row := by
  cases action with
  | sweepRead inputs =>
      obtain ⟨-, rfl⟩ := Option.ite_some_none_eq_some.mp taken
      rfl
  | sweepApply =>
      rcases tracked.apply_cases permitted taken with rfl | ⟨inputs, window, transition, live, advanced, rfl⟩
      · rfl
      · rcases advancePerson_cases live advanced with ⟨before, -⟩ | ⟨before, -⟩ <;>
          exact absurd finished (by rw [before]; decide)
  | sweepLeave | noteLeave call => exact Option.some.inj taken ▸ rfl
  | noteBegin call now =>
      simp only [step] at taken
      split at taken
      · exact Option.some.inj taken ▸ rfl
      · cases taken
  | noteRead call =>
      simp only [step] at taken
      split at taken
      · split at taken <;> exact Option.some.inj taken ▸ rfl
      · cases taken
  | noteUpdate call =>
      simp only [step] at taken
      split at taken
      · obtain rfl := Option.some.inj taken
        cases stored : state.row with
        | none => rfl
        | some run =>
            rw [stored] at finished
            have other : run.state ≠ .autoOut := by
              intro waits
              change run.state.Terminal at finished
              rw [waits] at finished
              exact absurd finished (by decide)
            simp [endRun, other]
      · cases taken

/-- In a run in which no sweep goes on once the employee has ended the run, the lunch sign-out
is safe. -/
theorem autoLunch_safe (reachable : Reachable (State.initial C) step GoesOn state) :
    Safe GoesOn state := by
  have tracked : Tracked state := reachable.invariant tracked_initial
    fun _ _ _ tracked permitted taken => tracked_step tracked permitted taken
  exact {
    outOnce := by
      rw [tracked.outs]
      cases stateOf state.row <;> decide
    inOnce := by
      refine Nat.le_trans tracked.ins ?_
      cases stateOf state.row <;> decide
    written := tracked.written
    inAfterOut := tracked.inAfterOut
    inBeforeNoted := tracked.inBeforeNoted
    terminal := fun _ _ => tracked.terminal }

end Step

/-- What a sweep reads at some minute of an employee whose lunch is from 720 to 750. -/
def atMinute (minute : ℤ) (isClockedIn : Bool) : Inputs where
  now := minute * 60000000
  settings := ⟨false, 14400000000, 1800000000⟩
  fixedWindow := some ⟨720 * 60000000, 750 * 60000000⟩
  isFlexible := false
  firstClockIn := none
  isClockedIn := isClockedIn
  currentWc := some "Repair 1"
  currentDepartmentId := some 7
  currentDepartmentName := some "Repair"
  latestInWc := none

/-- The employee leaves during the lunch. -/
def leavesAtLunch : List (Action ℕ) :=
  [.sweepRead (atMinute 720 true), .sweepApply, .noteBegin 0 (749 * 60000000), .noteRead 0,
    .noteUpdate 0, .sweepRead (atMinute 750 false), .sweepApply]

theorem autoLunch_safe_leavesAtLunch : ∃ state : State ℕ,
    state.history = [.noted 0, .wrote .clockOut] ∧ Safe GoesOn state := by
  have outcome : (run step (State.initial ℕ) leavesAtLunch).map State.history =
      some [.noted 0, .wrote .clockOut] := by decide
  obtain ⟨state, ran, history⟩ := Option.map_eq_some_iff.mp outcome
  have permitted : Permitted step GoesOn (State.initial ℕ) leavesAtLunch := by decide
  exact ⟨state, history, autoLunch_safe (Reachable.initial.run_permitted permitted ran)⟩

/-- A sweep reads the run just before the employee's sign-out ends it. -/
def sweepOverLeaving : List (Action ℕ) :=
  [.sweepRead (atMinute 720 true), .sweepApply, .noteBegin 0 (749 * 60000000), .noteRead 0,
    .sweepRead (atMinute 750 false), .noteUpdate 0, .sweepApply]

/-- In some run an employee who signed out for the day is signed in again. -/
theorem autoLunch_overrides_employee : ¬∀ state : State ℕ,
    Reachable (State.initial ℕ) step (fun _ _ => True) state → Safe (fun _ _ => True) state := by
  intro safe
  have outcome : (run step (State.initial ℕ) sweepOverLeaving).map State.history =
      some [.wrote .clockIn, .noted 0, .wrote .clockOut] := by decide
  obtain ⟨state, ran, history⟩ := Option.map_eq_some_iff.mp outcome
  have reachable := Reachable.initial.run (fun _ _ _ => trivial) ran
  exact (safe state reachable).inBeforeNoted [] _ history 0 List.mem_cons_self

end PlantManager.Timeclock.AutoLunch

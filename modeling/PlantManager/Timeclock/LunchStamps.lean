import PlantManager.Timeclock.AutoLunchSafe
import PlantManager.Timeline.Attendances

/-! # When the lunch punches are stamped

The signs of one employee on one day, and the sweeps between them. A sweep stamps its punch with the
boundary of the lunch, whenever it runs and whenever the employee came or left
(`Timeclock.AutoLunch.Day.map_punch_sweepWrites`). As long as nobody who is signed out
came after the boundary, and nobody who is signed in left after it, attendances stay in order
(`Timeclock.AutoLunch.autoLunch_stamps`).
-/

namespace PlantManager.Timeclock.AutoLunch

open PlantManager.Timeline PlantManager.Transition

def PunchAction.sign : PunchAction → Sign
  | .clockOut => .signOut
  | .clockIn => .signIn

/-- The run row of the employee, the log of the signs, latest first, and the time of the last step. -/
structure Day where
  row : Option Run
  log : List (Sign × ℤ)
  nextPunchId : ℕ
  clock : ℤ

inductive DayAction where
  | clockIn (now : ℤ)
  | clockOut (now : ℤ)
  | sweep (inputs : Inputs)

namespace Day

def initial (clock : ℤ) : Day := ⟨none, [], 1, clock⟩

/-- A sweep looks at employees who are signed in or have a run to finish. -/
def IsCandidate (day : Day) : Prop :=
  (openSince day.log).isSome ∨ ∃ run ∈ day.row, ¬run.state.Terminal

instance (day : Day) : Decidable day.IsCandidate :=
  inferInstanceAs (Decidable (_ ∨ ∃ run ∈ day.row, ¬(Run.state run).Terminal))

/-- What a sweep reads, with the signs as they are. -/
def seen (day : Day) (inputs : Inputs) : Inputs :=
  { inputs with isClockedIn := (openSince day.log).isSome }

/-- The row after a sweep, and the punch that it writes. -/
def sweepWrites (day : Day) (inputs : Inputs) : Option Run × Option Punch :=
  if day.IsCandidate then
    match advancePerson (day.seen inputs) day.row with
    | none => (day.row, none)
    | some (window, transition) =>
        let written := applied (day.seen inputs) day.row window transition day.nextPunchId
        (some (upsertRun day.row written.1), written.2)
  else (day.row, none)

/-- Steps do not go back in time. A sign-out also ends a run in the lunch gap. -/
def step (day : Day) : DayAction → Option Day
  | .clockIn now =>
      if day.clock ≤ now ∧ openSince day.log = none then
        some { day with log := (.signIn, now) :: day.log, clock := now }
      else none
  | .clockOut now =>
      if day.clock ≤ now then
        some { day with
          row := if ActiveLunchRun day.row now then endRun day.row else day.row
          log := (.signOut, now) :: day.log
          clock := now }
      else none
  | .sweep inputs =>
      if day.clock ≤ inputs.now then
        let written := day.sweepWrites inputs
        some { day with
          row := written.1
          log := (written.2.toList.map fun punch => (punch.action.sign, punch.occurredAt)) ++ day.log
          nextPunchId := day.nextPunchId + 1
          clock := inputs.now }
      else none

/-- The stamp of an automatic sign-out is not before the sign-in that goes on, and that of an
automatic sign-in not before the last sign-out. -/
def StampedInside (day : Day) (inputs : Inputs) : Prop :=
  ∀ punch ∈ (day.sweepWrites inputs).2,
    match punch.action with
    | .clockOut => ∀ since ∈ openSince day.log, since ≤ punch.occurredAt
    | .clockIn => ∀ ended ∈ lastOut day.log, ended ≤ punch.occurredAt

/-- A live sweep that is to sign the employee out finds an attendance that began by the start of the
lunch; one that is to sign the employee in finds that the last sign-out was by its end. -/
def InTime (day : Day) : DayAction → Prop
  | .sweep inputs =>
      inputs.settings.observeOnly = false → ∀ window ∈ windowFor inputs day.row,
        (stateOf day.row = .pending → window.outAt ≤ inputs.now →
          ∀ since ∈ openSince day.log, since ≤ window.outAt) ∧
        (stateOf day.row = .autoOut → openSince day.log = none → window.inAt ≤ inputs.now →
          ∀ ended ∈ lastOut day.log, ended ≤ window.inAt)
  | _ => True

instance : ∀ (day : Day) (action : DayAction), Decidable (day.InTime action)
  | day, .sweep inputs => inferInstanceAs (Decidable (_ → ∀ window ∈ windowFor inputs day.row,
      (_ → _ → ∀ since ∈ openSince day.log, since ≤ Window.outAt window) ∧
        (_ → _ → _ → ∀ ended ∈ lastOut day.log, ended ≤ Window.inAt window)))
  | _, .clockIn _ => isTrue trivial
  | _, .clockOut _ => isTrue trivial

/-- A sweep writes at most one punch, stamped with a boundary of the lunch. -/
theorem map_punch_sweepWrites (day : Day) (inputs : Inputs) :
    (day.sweepWrites inputs).2.map (fun punch => (punch.action, punch.occurredAt)) =
      if inputs.settings.observeOnly then none
      else (windowFor inputs day.row).bind fun window =>
        match stateOf day.row with
        | .pending =>
            if window.outAt ≤ inputs.now ∧ (openSince day.log).isSome then
              some (.clockOut, window.outAt)
            else none
        | .autoOut =>
            if window.inAt ≤ inputs.now ∧ openSince day.log = none then
              some (.clockIn, window.inAt)
            else none
        | _ => none := by
  have window_ : windowFor (day.seen inputs) day.row = windowFor inputs day.row := rfl
  by_cases candidate : day.IsCandidate
  · rw [sweepWrites, if_pos candidate, advancePerson, window_]
    cases windowFor inputs day.row with
    | none => simp
    | some window =>
        cases state : stateOf day.row with
        | pending =>
            by_cases due : window.outAt ≤ inputs.now
            · cases since : openSince day.log with
              | none => simp [RunState.Terminal, decide, seen, due, since, applied]
              | some moment =>
                  cases live : inputs.settings.observeOnly <;>
                    simp [RunState.Terminal, decide, seen, due, since, applied, live]
            · simp [RunState.Terminal, decide, seen, due]
        | autoOut =>
            by_cases due : window.inAt ≤ inputs.now
            · cases live : inputs.settings.observeOnly with
              | true => simp [RunState.Terminal, decide, seen, due, applied, live]
              | false =>
                  cases since : openSince day.log with
                  | none
                  | some moment => simp [RunState.Terminal, decide, seen, due, since, applied, live]
            · simp [RunState.Terminal, decide, seen, due]
        | done | skipped | endedByEmployee => simp [RunState.Terminal]
  · rw [sweepWrites, if_neg candidate]
    obtain ⟨signedOut, finished⟩ := not_or.mp candidate
    have waits : stateOf day.row ≠ .autoOut := by
      intro state
      cases row : day.row with
      | none =>
          rw [row] at state
          cases state
      | some run =>
          rw [row] at state
          refine finished ⟨run, row, ?_⟩
          have isOut : run.state = .autoOut := state
          rw [isOut]
          decide
    have since : openSince day.log = none := by simpa using signedOut
    cases state : stateOf day.row with
    | autoOut => exact absurd state waits
    | pending => cases windowFor inputs day.row <;> simp [since]
    | done | skipped | endedByEmployee => simp

theorem stampedInside_iff {day : Day} {inputs : Inputs} :
    day.StampedInside inputs ↔
      ∀ stamp ∈ (day.sweepWrites inputs).2.map fun punch => (punch.action, punch.occurredAt),
        match stamp.1 with
        | .clockOut => ∀ since ∈ openSince day.log, since ≤ stamp.2
        | .clockIn => ∀ ended ∈ lastOut day.log, ended ≤ stamp.2 := by
  rw [StampedInside]
  cases (day.sweepWrites inputs).2 with
  | none => exact ⟨fun _ => nofun, fun _ => nofun⟩
  | some punch =>
      exact ⟨fun inside stamp isStamp => Option.some.inj isStamp ▸ inside punch rfl,
        fun inside other isPunch => Option.some.inj isPunch ▸ inside _ rfl⟩

/-- What a sweep stamps is inside exactly when the sweep is in time. -/
theorem stampedInside_iff_inTime (day : Day) (inputs : Inputs) :
    day.StampedInside inputs ↔ day.InTime (.sweep inputs) := by
  rw [stampedInside_iff, map_punch_sweepWrites, InTime]
  cases live : inputs.settings.observeOnly with
  | true => exact ⟨fun _ => nofun, fun _ => nofun⟩
  | false =>
      cases windowFor inputs day.row with
      | none => exact ⟨fun _ _ => nofun, fun _ => nofun⟩
      | some window =>
          cases stateOf day.row with
          | pending =>
              by_cases due : window.outAt ≤ inputs.now
              · cases since : openSince day.log with
                | none => simp
                | some moment => simp [due]
              · simp [due]
          | autoOut =>
              by_cases due : window.inAt ≤ inputs.now
              · cases since : openSince day.log with
                | none => simp [due]
                | some moment => simp
              · simp [due]
          | done | skipped | endedByEmployee => simp

/-- What holds in every state: the signs are in order, and none is later than the last step. -/
structure Kept (day : Day) : Prop where
  chronicle : Chronicle day.log
  past : ∀ sign ∈ day.log, sign.2 ≤ day.clock

theorem Kept.add {day : Day} (kept : day.Kept) {sign : Sign × ℤ} {row : Option Run} {clock : ℤ}
    {nextPunchId : ℕ} (after : ∀ earlier ∈ day.log, earlier.2 ≤ sign.2) (until_ : sign.2 ≤ clock)
    (signedOut : sign.1 = .signIn → openSince day.log = none) :
    Kept ⟨row, sign :: day.log, nextPunchId, clock⟩ where
  chronicle := kept.chronicle.cons after signedOut
  past := List.forall_mem_cons.mpr
    ⟨until_, fun earlier member => (after earlier member).trans until_⟩

/-- The stamp that a sweep writes, if any: where the employee was signed in or out, and when. -/
theorem stamp_cases {day : Day} {inputs : Inputs} {punch : Punch}
    (wrote : (day.sweepWrites inputs).2 = some punch) :
    punch.occurredAt ≤ inputs.now ∧
      ((punch.action = .clockOut ∧ (openSince day.log).isSome) ∨
        (punch.action = .clockIn ∧ openSince day.log = none)) := by
  have stamp := map_punch_sweepWrites day inputs
  rw [wrote, Option.map_some] at stamp
  split at stamp
  · cases stamp
  · obtain ⟨window, -, written⟩ := Option.bind_eq_some_iff.mp stamp.symm
    split at written
    · split at written
      · next due =>
          obtain ⟨action, instant⟩ := Prod.mk.inj (Option.some.inj written)
          exact ⟨instant ▸ due.1, Or.inl ⟨action.symm, due.2⟩⟩
      · cases written
    · split at written
      · next due =>
          obtain ⟨action, instant⟩ := Prod.mk.inj (Option.some.inj written)
          exact ⟨instant ▸ due.1, Or.inr ⟨action.symm, due.2⟩⟩
      · cases written
    · cases written

theorem kept_step {day next : Day} {action : DayAction} (kept : day.Kept)
    (inTime : day.InTime action) (taken : day.step action = some next) : next.Kept := by
  cases action with
  | clockIn now =>
      rw [step] at taken
      split at taken
      · next allowed =>
          obtain rfl := Option.some.inj taken
          exact kept.add (fun earlier member => (kept.past earlier member).trans allowed.1) le_rfl
            fun _ => allowed.2
      · cases taken
  | clockOut now =>
      rw [step] at taken
      split at taken
      · next later =>
          obtain rfl := Option.some.inj taken
          exact kept.add (fun earlier member => (kept.past earlier member).trans later) le_rfl nofun
      · cases taken
  | sweep inputs =>
      rw [step] at taken
      split at taken
      · next later =>
          obtain rfl := Option.some.inj taken
          have inside := (stampedInside_iff_inTime day inputs).mpr inTime
          cases wrote : (day.sweepWrites inputs).2 with
          | none =>
              exact ⟨kept.chronicle, fun sign member => (kept.past sign member).trans later⟩
          | some punch =>
              have right := inside punch wrote
              obtain ⟨due, signs⟩ := stamp_cases wrote
              rcases signs with ⟨action, signedIn⟩ | ⟨action, signedOut⟩
              · rw [action] at right
                obtain ⟨since, signedIn⟩ := Option.isSome_iff_exists.mp signedIn
                refine kept.add (fun earlier member => ?_) due fun isIn => ?_
                · exact (kept.chronicle.le_of_openSince signedIn earlier member).trans
                    (right since signedIn)
                · have isOut : punch.action.sign = .signOut := by rw [action, PunchAction.sign]
                  cases isOut.symm.trans isIn
              · rw [action] at right
                exact kept.add (kept.chronicle.le_of_lastOut signedOut right) due fun _ => signedOut
      · cases taken

end Day

def atMinuteOf (minute : ℤ) : ℤ := minute * 60000000

def wholeDay : List DayAction :=
  [.clockIn (atMinuteOf 420), .sweep (atMinute 720 true), .sweep (atMinute 751 false),
    .clockOut (atMinuteOf 930)]

/-- The employee first comes during the lunch. -/
def lateArrival : List DayAction := [.clockIn (atMinuteOf 730), .sweep (atMinute 731 true)]

end PlantManager.Timeclock.AutoLunch

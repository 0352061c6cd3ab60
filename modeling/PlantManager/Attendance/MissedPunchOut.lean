import PlantManager.Attendance.Projection
import PlantManager.Transition.Runs

/-! # Missed punch-outs

A sweep closes each attendance that is open from an earlier day at the midnight that ends its day,
and flags it. The write to Odoo can take effect and raise, or be the last thing a process does. If
every close that takes effect returns and its flag is then stored, every close leaves its flag
(`Attendance.MissedPunchOut.closes_flagged`); a close whose call raises is not found
open again, and has no flag (`Attendance.MissedPunchOut.closedUnflagged`).
-/

namespace PlantManager.Attendance.MissedPunchOut

open Mapping Transition
open Attendance.Projection (PlantCalendar)

/-- An attendance of Odoo; `checkIn` is `none` where the text does not parse. -/
structure Row where
  employeeId : Option ℤ
  checkIn : Option ℤ
  checkOut : Option ℤ
  outMode : Option String
  deriving DecidableEq

/-- A row of `missed_punch_out`. -/
structure Flag where
  employeeOdooId : ℤ
  name : String
  checkIn : ℤ
  autoClosedAt : ℤ
  correctedAt : Option ℤ
  resolvedAt : Option ℤ
  deriving DecidableEq

structure OpenRow where
  attId : ℕ
  employeeOdooId : ℤ
  checkIn : Option ℤ
  deriving DecidableEq

structure Closure where
  attId : ℕ
  employeeOdooId : ℤ
  checkIn : ℤ
  midnight : ℤ
  deriving DecidableEq

def fetchOpenAttendances (odoo : Dictionary ℕ Row) : List OpenRow :=
  odoo.entries.filterMap fun (attId, row) =>
    match row.checkOut, row.employeeId with
    | none, some employee => if employee = 0 then none else some ⟨attId, employee, row.checkIn⟩
    | _, _ => none

variable (calendar : PlantCalendar)

def overdueClosures (rows : List OpenRow) (today : ℤ) : List Closure :=
  rows.filterMap fun row =>
    match row.checkIn with
    | none => none
    | some checkIn =>
        let localDate := calendar.dayOf checkIn
        if today ≤ localDate then none
        else some ⟨row.attId, row.employeeOdooId, checkIn, calendar.dayStart (localDate + 1)⟩

def nameFor (people : ℤ → Option String) (employee : ℤ) : String :=
  (people employee).getD ("#" ++ toString employee)

def recordClose (flags : Dictionary ℕ Flag) (closure : Closure) (name : String) :
    Dictionary ℕ Flag :=
  flags.setDefault closure.attId
    ⟨closure.employeeOdooId, name, closure.checkIn, closure.midnight, none, none⟩

/-- A flag that is resolved stays as it is. -/
def correct (flags : Dictionary ℕ Flag) (attId : ℕ) (correctedTs now : ℤ) : Dictionary ℕ Flag :=
  flags.modify attId fun flag =>
    if flag.resolvedAt = none then
      { flag with correctedAt := some correctedTs, resolvedAt := some now }
    else flag

/-- The check-out of an attendance, unless Odoo no longer has it. -/
def clockOut (odoo : Dictionary ℕ Row) (closure : Closure) : Dictionary ℕ Row :=
  odoo.modify closure.attId fun row =>
    { row with checkOut := some closure.midnight, outMode := some "auto_check_out" }

/-- The sweep that is under way: its day, its closures from the present one on, whether that one is
closed, the names it looked up, how many it closed, and whether all its calls succeeded. -/
structure Sweep where
  today : ℤ
  closures : List Closure
  recording : Bool
  names : ℤ → Option String
  count : ℕ
  clean : Bool

/-- `closed` are the closes that took effect, with the day of the sweep; `rested` says that the last sweep ran to completion
and all its calls succeeded. -/
structure World where
  odoo : Dictionary ℕ Row
  flags : Dictionary ℕ Flag
  sweep : Option Sweep
  closed : List (ℤ × Closure)
  rested : Bool

/-- What becomes of a call: it returns, raises, or the process dies, with or without effect. -/
inductive Outcome where
  | done
  | raised (landed : Bool)
  | died (landed : Bool)
  deriving DecidableEq, Repr

def Outcome.landed : Outcome → Bool
  | .done => true
  | .raised landed | .died landed => landed

inductive Action where
  /-- Others change Odoo. -/
  | odooChanges (odoo : Dictionary ℕ Row)
  /-- A sweep begins; the lookup of names can fail. -/
  | start (today : ℤ) (names : Option (ℤ → Option String))
  | clockOut (outcome : Outcome)
  | record (outcome : Outcome) (people : ℤ → Option String)
  | crash
  | finish
  | correct (attId : ℕ) (correctedTs now : ℤ)

/-- Go on with the next closure after a call. -/
def Sweep.next (sweep : Sweep) (rest : List Closure) (outcome : Outcome) : Option Sweep :=
  match outcome with
  | .done => some { sweep with closures := rest, recording := false, count := sweep.count + 1 }
  | .raised _ => some { sweep with closures := rest, recording := false, clean := false }
  | .died _ => none

def step (world : World) : Action → Option World
  | .odooChanges odoo => some { world with odoo := odoo }
  | .start today names =>
      match world.sweep with
      | none =>
          some { world with
            sweep := some
              { today := today
                closures := overdueClosures calendar (fetchOpenAttendances world.odoo) today
                recording := false
                names := names.getD fun _ => none
                count := 0
                clean := true }
            rested := false }
      | some _ => none
  | .clockOut outcome =>
      match world.sweep with
      | some sweep =>
          match sweep.closures, sweep.recording with
          | closure :: rest, false =>
              let closing := { world with
                odoo := if outcome.landed then clockOut world.odoo closure else world.odoo
                closed := if outcome.landed then (sweep.today, closure) :: world.closed
                  else world.closed }
              if outcome.landed ∧ world.odoo.get closure.attId = none then none
              else if outcome = .done then
                some { closing with sweep := some { sweep with recording := true } }
              else some { closing with sweep := sweep.next rest outcome }
          | _, _ => none
      | none => none
  | .record outcome people =>
      match world.sweep with
      | some sweep =>
          match sweep.closures, sweep.recording with
          | closure :: rest, true =>
              let name := (sweep.names closure.employeeOdooId).getD
                (nameFor people closure.employeeOdooId)
              some { world with
                flags := if outcome.landed then recordClose world.flags closure name
                  else world.flags
                sweep := sweep.next rest outcome }
          | _, _ => none
      | none => none
  | .crash => some { world with sweep := none }
  | .finish =>
      match world.sweep with
      | some sweep =>
          if sweep.closures = [] then some { world with sweep := none, rested := sweep.clean }
          else none
      | none => none
  | .correct attId correctedTs now =>
      some { world with flags := correct world.flags attId correctedTs now }

/-! ## The claim -/

/-- The flag of a close. -/
def FlagStands (flags : Dictionary ℕ Flag) (closure : Closure) : Prop :=
  ∃ flag ∈ flags.get closure.attId, flag.autoClosedAt = closure.midnight

/-- When the last sweep ran to completion, every close has its flag. -/
def Flagged (world : World) : Prop :=
  world.rested = true → ∀ closed ∈ world.closed, FlagStands world.flags closed.2

/-- A close is at the midnight that ends the day of the check-in, and that day is over. -/
def Overdue (closed : ℤ × Closure) : Prop :=
  closed.2.midnight = calendar.dayStart (calendar.dayOf closed.2.checkIn + 1) ∧
    closed.2.checkIn < closed.2.midnight ∧ calendar.dayOf closed.2.checkIn < closed.1

/-- A step leaves the flags that are resolved. -/
def KeepsResolved (world : World) : Prop :=
  ∀ action next, step calendar world action = some next →
    ∀ attId flag, world.flags.get attId = some flag → flag.resolvedAt ≠ none →
      next.flags.get attId = some flag

/-- A close that takes effect returns; the flag is then stored, and is the only one of its
attendance; and the process does not die in between. -/
def Recorded (world : World) : Action → Prop
  | .clockOut outcome => outcome.landed = true → outcome = .done
  | .record outcome _ => outcome.landed = true ∧
      ∀ sweep ∈ world.sweep, ∀ closure ∈ sweep.closures.head?,
        ∀ flag ∈ world.flags.get closure.attId, flag.autoClosedAt = closure.midnight
  | .crash => ∀ sweep ∈ world.sweep, sweep.recording = false
  | _ => True

variable {calendar} {world next : World} {action : Action} {flags : Dictionary ℕ Flag}
  {closure other : Closure} {name : String}

/-! ## Flags -/

theorem get_recordClose (flags : Dictionary ℕ Flag) (closure : Closure) (name : String)
    (attId : ℕ) :
    (recordClose flags closure name).get attId =
      if attId = closure.attId then
        some ((flags.get closure.attId).getD
          ⟨closure.employeeOdooId, name, closure.checkIn, closure.midnight, none, none⟩)
      else flags.get attId :=
  Dictionary.get_alter _ _ _ _

theorem get_recordClose_of_some {attId : ℕ} {flag : Flag} (stored : flags.get attId = some flag) :
    (recordClose flags closure name).get attId = some flag := by
  rw [get_recordClose]
  split
  · rename_i same
    rw [← same, stored, Option.getD_some]
  · exact stored

theorem FlagStands.recordClose (stands : FlagStands flags other) :
    FlagStands (recordClose flags closure name) other := by
  obtain ⟨flag, stored, same⟩ := stands
  exact ⟨flag, get_recordClose_of_some stored, same⟩

theorem flagStands_recordClose
    (alone : ∀ flag ∈ flags.get closure.attId, flag.autoClosedAt = closure.midnight) :
    FlagStands (recordClose flags closure name) closure := by
  refine ⟨_, (get_recordClose flags closure name closure.attId).trans (if_pos rfl), ?_⟩
  cases stored : flags.get closure.attId with
  | none => rfl
  | some flag => exact alone flag stored

theorem FlagStands.correct {attId : ℕ} {correctedTs now : ℤ} (stands : FlagStands flags closure) :
    FlagStands (correct flags attId correctedTs now) closure := by
  obtain ⟨flag, stored, same⟩ := stands
  unfold FlagStands MissedPunchOut.correct
  rw [Dictionary.get_modify]
  split
  · refine ⟨_, Option.map_eq_some_iff.mpr ⟨flag, stored, rfl⟩, ?_⟩
    split <;> exact same
  · exact ⟨flag, stored, same⟩

/-! ## Calls of a sweep -/

variable {outcome : Outcome}

theorem clockOut_took (took : step calendar world (.clockOut outcome) = some next) :
    ∃ sweep closure rest, world.sweep = some sweep ∧ sweep.closures = closure :: rest ∧
      sweep.recording = false ∧ next = { world with
        odoo := if outcome.landed then clockOut world.odoo closure else world.odoo
        closed := if outcome.landed then (sweep.today, closure) :: world.closed else world.closed
        sweep := if outcome = .done then some { sweep with recording := true }
          else sweep.next rest outcome } := by
  rw [step] at took
  split at took
  · rename_i sweep under
    split at took
    · rename_i closure rest planned idle
      refine ⟨sweep, closure, rest, under, planned, idle, ?_⟩
      obtain ⟨-, took⟩ := Option.ite_none_left_eq_some.mp took
      split at took
      · rename_i returned
        obtain rfl := Option.some.inj took
        rw [if_pos returned]
      · rename_i failed
        obtain rfl := Option.some.inj took
        rw [if_neg failed]
    · cases took
  · cases took

theorem record_took {people : ℤ → Option String}
    (took : step calendar world (.record outcome people) = some next) :
    ∃ sweep closure rest name, world.sweep = some sweep ∧ sweep.closures = closure :: rest ∧
      sweep.recording = true ∧ next = { world with
        flags := if outcome.landed then recordClose world.flags closure name else world.flags
        sweep := sweep.next rest outcome } := by
  rw [step] at took
  split at took
  · rename_i sweep under
    split at took
    · rename_i closure rest planned recording
      obtain rfl := Option.some.inj took
      exact ⟨sweep, closure, rest, _, under, planned, recording, rfl⟩
    · cases took
  · cases took

/-- After a call the sweep goes on with the rest of its closures, if at all. -/
theorem mem_next {sweep later : Sweep} {rest : List Closure}
    (goes : later ∈ sweep.next rest outcome) :
    later.closures = rest ∧ later.today = sweep.today := by
  cases outcome with
  | done | raised landed =>
      obtain rfl := Option.some.inj goes
      exact ⟨rfl, rfl⟩
  | died landed => cases goes

/-- Neither a new flag nor a correction changes a resolved flag. -/
theorem keepsResolved (calendar : PlantCalendar) (world : World) :
    KeepsResolved calendar world := by
  intro action next took attId flag stored resolved
  cases action with
  | odooChanges odoo | crash =>
      obtain rfl := Option.some.inj took
      exact stored
  | start today names =>
      rw [step] at took
      split at took
      · obtain rfl := Option.some.inj took
        exact stored
      · cases took
  | clockOut outcome =>
      obtain ⟨_, _, _, -, -, -, rfl⟩ := clockOut_took took
      exact stored
  | record outcome people =>
      obtain ⟨_, _, _, _, -, -, -, rfl⟩ := record_took took
      split
      · exact get_recordClose_of_some stored
      · exact stored
  | finish =>
      rw [step] at took
      split at took
      · split at took
        · obtain rfl := Option.some.inj took
          exact stored
        · cases took
      · cases took
  | correct corrected correctedTs now =>
      obtain rfl := Option.some.inj took
      rw [MissedPunchOut.correct, Dictionary.get_modify]
      split
      · rw [stored, Option.map_some, if_neg resolved]
      · exact stored

/-! ## Closes -/

theorem overdue_of_mem {rows : List OpenRow} {today : ℤ}
    (member : closure ∈ overdueClosures calendar rows today) : Overdue calendar (today, closure) := by
  obtain ⟨row, -, made⟩ := List.mem_filterMap.mp member
  split at made
  · cases made
  · rename_i checkIn
    obtain ⟨late, made⟩ := Option.ite_none_left_eq_some.mp made
    obtain rfl := Option.some.inj made
    exact ⟨rfl, ((calendar.dayOf_eq_iff _ _).mp rfl).2, not_le.mp late⟩

/-- All closes are overdue, and one that has no flag is that of the sweep that is about to store
it. -/
structure World.Sound (calendar : PlantCalendar) (world : World) : Prop where
  overdue : ∀ closed ∈ world.closed, Overdue calendar closed
  planned : ∀ sweep ∈ world.sweep, ∀ closure ∈ sweep.closures, Overdue calendar (sweep.today, closure)
  rested : world.rested = true → world.sweep = none

/-- What no flag stands for is the close that is about to be flagged. -/
def Pending (world : World) : Prop :=
  ∀ closed ∈ world.closed, FlagStands world.flags closed.2 ∨
    ∃ sweep ∈ world.sweep, sweep.recording = true ∧ sweep.closures.head? = some closed.2

theorem World.Sound.step (sound : world.Sound calendar)
    (took : MissedPunchOut.step calendar world action = some next) : next.Sound calendar := by
  cases action with
  | odooChanges odoo | correct attId correctedTs now =>
      obtain rfl := Option.some.inj took
      exact ⟨sound.overdue, sound.planned, sound.rested⟩
  | start today names =>
      rw [MissedPunchOut.step] at took
      split at took
      · obtain rfl := Option.some.inj took
        refine ⟨sound.overdue, ?_, fun rested => absurd rested Bool.false_ne_true⟩
        intro sweep under closure member
        obtain rfl := Option.some.inj under
        exact overdue_of_mem member
      · cases took
  | clockOut outcome =>
      obtain ⟨sweep, closure, rest, under, planned, -, rfl⟩ := clockOut_took took
      have overdue := sound.planned sweep under
      rw [planned] at overdue
      refine ⟨?_, ?_, fun rested => absurd (under.symm.trans (sound.rested rested)) (by simp)⟩
      · intro closed member
        split at member
        · rcases List.mem_cons.mp member with rfl | member
          · exact overdue closure List.mem_cons_self
          · exact sound.overdue closed member
        · exact sound.overdue closed member
      · intro later under other member
        dsimp only at under
        split at under
        · obtain rfl := Option.some.inj under
          exact overdue other (planned ▸ member)
        · obtain ⟨same, day⟩ := mem_next under
          rw [day]
          exact overdue other (List.mem_cons_of_mem _ (same ▸ member))
  | record outcome people =>
      obtain ⟨sweep, closure, rest, name, under, planned, -, rfl⟩ := record_took took
      have overdue := sound.planned sweep under
      rw [planned] at overdue
      refine ⟨sound.overdue, ?_,
        fun rested => absurd (under.symm.trans (sound.rested rested)) (by simp)⟩
      intro later goes other member
      obtain ⟨same, day⟩ := mem_next goes
      rw [day]
      exact overdue other (List.mem_cons_of_mem _ (same ▸ member))
  | crash =>
      obtain rfl := Option.some.inj took
      exact ⟨sound.overdue, fun _ under => absurd under (Option.not_mem_none _), fun _ => rfl⟩
  | finish =>
      rw [MissedPunchOut.step] at took
      split at took
      · split at took
        · obtain rfl := Option.some.inj took
          exact ⟨sound.overdue, fun _ under => absurd under (Option.not_mem_none _), fun _ => rfl⟩
        · cases took
      · cases took

theorem Pending.step (pending : Pending world) (recorded : Recorded world action)
    (took : MissedPunchOut.step calendar world action = some next) : Pending next := by
  cases action with
  | odooChanges odoo =>
      obtain rfl := Option.some.inj took
      exact pending
  | start today names =>
      rw [MissedPunchOut.step] at took
      split at took
      · rename_i none
        obtain rfl := Option.some.inj took
        intro closed member
        refine (pending closed member).imp_right fun ⟨sweep, under, _⟩ => ?_
        rw [none] at under
        cases under
      · cases took
  | clockOut outcome =>
      obtain ⟨sweep, closure, rest, under, planned, idle, rfl⟩ := clockOut_took took
      have stands : ∀ closed ∈ world.closed, FlagStands world.flags closed.2 := by
        intro closed member
        refine (pending closed member).resolve_right fun ⟨other, same, recording, _⟩ => ?_
        obtain rfl := Option.some.inj (under.symm.trans same)
        rw [idle] at recording
        cases recording
      intro closed member
      split at member
      · rename_i landed
        have returned : outcome = .done := recorded landed
        rcases List.mem_cons.mp member with rfl | member
        · refine .inr ⟨{ sweep with recording := true }, if_pos returned, rfl, ?_⟩
          exact congrArg List.head? planned
        · exact .inl (stands closed member)
      · exact .inl (stands closed member)
  | record outcome people =>
      obtain ⟨sweep, closure, rest, name, under, planned, recording, rfl⟩ := record_took took
      obtain ⟨landed, alone⟩ := recorded
      have single := alone sweep under closure (congrArg List.head? planned)
      intro closed member
      left
      rw [if_pos landed]
      rcases pending closed member with stands | ⟨other, same, -, isHead⟩
      · exact stands.recordClose
      · obtain rfl := Option.some.inj (under.symm.trans same)
        rw [planned] at isHead
        rw [← Option.some.inj isHead]
        exact flagStands_recordClose single
  | crash =>
      obtain rfl := Option.some.inj took
      intro closed member
      refine .inl ((pending closed member).resolve_right fun ⟨sweep, under, recording, _⟩ => ?_)
      rw [recorded sweep under] at recording
      cases recording
  | finish =>
      rw [MissedPunchOut.step] at took
      split at took
      · rename_i sweep under
        obtain ⟨planned, rfl⟩ := Option.ite_some_none_eq_some.mp took
        intro closed member
        refine .inl ((pending closed member).resolve_right fun ⟨other, same, _, isHead⟩ => ?_)
        obtain rfl := Option.some.inj (under.symm.trans same)
        rw [planned] at isHead
        cases isHead
      · cases took
  | correct attId correctedTs now =>
      obtain rfl := Option.some.inj took
      exact fun closed member => (pending closed member).imp_left FlagStands.correct

/-- Odoo and the table of flags as they are, before the first sweep. -/
def World.initial (odoo : Dictionary ℕ Row) (flags : Dictionary ℕ Flag) : World :=
  ⟨odoo, flags, none, [], false⟩

theorem sound_of_reachable {odoo : Dictionary ℕ Row} {flags : Dictionary ℕ Flag}
    {allowed : World → Action → Prop}
    (reachable : Reachable (World.initial odoo flags) (step calendar) allowed world) :
    world.Sound calendar := by
  induction reachable with
  | initial =>
      exact ⟨fun _ member => absurd member List.not_mem_nil,
        fun _ under => absurd under (Option.not_mem_none _), fun _ => rfl⟩
  | step _ _ took ih => exact ih.step took

theorem pending_of_reachable {odoo : Dictionary ℕ Row} {flags : Dictionary ℕ Flag}
    (reachable : Reachable (World.initial odoo flags) (step calendar) Recorded world) :
    Pending world := by
  induction reachable with
  | initial => exact fun _ member => absurd member List.not_mem_nil
  | step _ recorded took ih => exact ih.step recorded took

/-- In a run whose closes and flags all succeed together, every close has its flag once a sweep ran
to completion; no attendance is closed before its check-in or on its own day, and no resolved flag
changes. -/
theorem closes_flagged {odoo : Dictionary ℕ Row} {flags : Dictionary ℕ Flag}
    (reachable : Reachable (World.initial odoo flags) (step calendar) Recorded world) :
    Flagged world ∧ (∀ closed ∈ world.closed, Overdue calendar closed) ∧
      KeepsResolved calendar world := by
  have sound := sound_of_reachable reachable
  refine ⟨fun rested closed member => ?_, sound.overdue, keepsResolved calendar world⟩
  refine (pending_of_reachable reachable closed member).resolve_right fun ⟨sweep, under, _⟩ => ?_
  rw [sound.rested rested] at under
  cases under

/-! ## A close that raises -/

instance (flags : Dictionary ℕ Flag) (closure : Closure) : Decidable (FlagStands flags closure) :=
  inferInstanceAs (Decidable (∃ flag ∈ flags.get closure.attId, _))

instance (world : World) : DecidablePred (Recorded world)
  | .clockOut outcome => inferInstanceAs (Decidable (outcome.landed = true → outcome = .done))
  | .record outcome _ => inferInstanceAs (Decidable (outcome.landed = true ∧
      ∀ sweep ∈ world.sweep, ∀ closure ∈ sweep.closures.head?,
        ∀ flag ∈ world.flags.get closure.attId, flag.autoClosedAt = closure.midnight))
  | .crash => inferInstanceAs (Decidable (∀ sweep ∈ world.sweep, sweep.recording = false))
  | .odooChanges _ | .start _ _ | .finish | .correct _ _ _ => isTrue trivial

/-- Days of 86400 seconds. -/
def dayCalendar : PlantCalendar where
  dayOf moment := moment / 86400
  dayStart day := day * 86400
  dayStart_strictMono := fun day later before => by dsimp only; omega
  dayOf_eq_iff moment day := by omega

/-- Employee 9 came at eight on day 0, and is still there. -/
def leftOpen : World :=
  .initial ⟨[(5, ⟨some 9, some 28800, none, none⟩)], by simp⟩ ∅

/-- The status of overtime cannot be written after the check-out; the next sweep finds nothing. -/
def closeRaises : List Action :=
  [.start 1 none, .clockOut (.raised true), .finish, .start 1 none, .finish]

theorem runs_closeRaises : (run (step dayCalendar) leftOpen closeRaises).isSome = true := by
  decide +kernel

theorem closedUnflagged : ∃ world, Reachable leftOpen (step dayCalendar) (fun _ _ => True) world ∧
    ¬(Flagged world ∧ (∀ closed ∈ world.closed, Overdue dayCalendar closed) ∧
      KeepsResolved dayCalendar world) := by
  refine ⟨_, Reachable.run .initial (fun _ _ _ => trivial)
    (Option.some_get runs_closeRaises).symm, fun holds => ?_⟩
  have bare : ((run (step dayCalendar) leftOpen closeRaises).get runs_closeRaises).rested = true ∧
      ∃ closed ∈ ((run (step dayCalendar) leftOpen closeRaises).get runs_closeRaises).closed,
        ¬FlagStands ((run (step dayCalendar) leftOpen closeRaises).get runs_closeRaises).flags
          closed.2 := by
    decide +kernel
  obtain ⟨rested, closed, member, unflagged⟩ := bare
  exact unflagged (holds.1 rested closed member)

/-- The first call fails without effect, and the next sweep closes and flags. -/
def closeRepeated : List Action :=
  [.start 1 none, .clockOut (.raised false), .finish, .start 1 none, .clockOut .done,
    .record .done fun _ => some "Ana", .finish, .correct 5 57600 90000]

theorem runs_closeRepeated : (run (step dayCalendar) leftOpen closeRepeated).isSome = true := by
  decide +kernel

def flaggedWorld : World :=
  (run (step dayCalendar) leftOpen closeRepeated).get runs_closeRepeated

theorem closes_flagged_repeated :
    Flagged flaggedWorld ∧ (∀ closed ∈ flaggedWorld.closed, Overdue dayCalendar closed) ∧
      KeepsResolved dayCalendar flaggedWorld :=
  closes_flagged (Reachable.run_permitted .initial (by decide +kernel)
    (Option.some_get runs_closeRepeated).symm)

end PlantManager.Attendance.MissedPunchOut

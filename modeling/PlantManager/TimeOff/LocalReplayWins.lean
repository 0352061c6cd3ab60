import PlantManager.TimeOff.LocalReplay

/-! # A denial beats the replay of a local record

If no pass dies or loses the row while the leave waits to be refused again, and nobody decides from
what he read before the replay (`TimeOff.LocalReplay.InOrder`), a denied request stays
denied and its leave does not stay validated, and a request that nobody denies stays approved
(`TimeOff.LocalReplay.denial_wins`). A denial that loaded the row before it was handed
back is undone by the next poll (`TimeOff.LocalReplay.denial_undone`).
-/

namespace PlantManager.TimeOff.LocalReplay

open LocalRecord (Row Notes Kind RequestState suppressResolution unsuppressResolution
  maybeNotifyResolution mirror mirrorRow)
open Transition

/-- The row is an approved local record. -/
def IsLocal (row : Row) : Prop := row.localRecord = true ∧ row.state = .validate

/-- The row is approved and was handed back to the mirror. -/
def Adopted (row : Row) : Prop := row.localRecord = false ∧ row.state = .validate

/-- The row is denied. -/
def Settled (row : Row) : Prop := row.localRecord = false ∧ row.state = .refuse

/-- What the replay of a local record promises. -/
structure Kept (before : Notes) (world : World) : Prop where
  /-- Once a denial returned success, the row is denied. -/
  denied : world.denied = true → Settled world.row
  /-- Then, when no pass is running, Odoo does not have the leave validated. -/
  refused : world.denied = true → (∀ pass, world.passes pass = none) →
    world.leave.state ≠ "validate"
  /-- While nobody denies it, the row is approved. -/
  approved : world.begun = false → world.row.state = .validate
  /-- Then the employee is shown no new decision. -/
  quiet : world.begun = false → ∀ kind, world.notes kind = some false → before kind = some false
  /-- When no pass is running, a leave that Odoo has validated is that of an approved row that was
  handed back; and the other way round while nobody denies it. -/
  agrees : (∀ pass, world.passes pass = none) →
    (world.leave.state = "validate" → Adopted world.row) ∧
      (world.begun = false → Adopted world.row → world.leave.state = "validate")

/-- A pass read the state of the leave and may still change it. -/
def Phase.attempting : Phase → Bool
  | .resetting | .approving _ | .acting _ _ | .refusing | .adopting false | .undoing => true
  | .chosen | .adopting true | .suppressing | .unsuppressing => false

/-- A pass may have changed the leave. -/
def Phase.replaying : Phase → Bool
  | .resetting => false
  | phase => phase.attempting

/-- A pass has not changed the leave, or it is refused. -/
def Unharmed (world : World) (pass : ℕ) : Prop :=
  ∀ phase ∈ world.passes pass, phase.replaying = true → world.leave.state = "refuse"

/-- Passes attempt the row one after the other, and none stops while the leave is to be refused
again. A poll that mirrors a row which is no local record has the state of the leave, and no pass
replays it. A denial that loaded a local record settles it before it is handed back. -/
def InOrder (world : World) : Action → Prop
  | .fetchState _ ok => ok = true → ∀ other phase, world.passes other = some phase →
      phase.attempting = false
  | .die pass => Unharmed world pass
  | .adopt pass ok => ok = false → Unharmed world pass
  | .upsert poll ok => ok = true → ∀ leave existing, world.polls poll = some (.read leave existing) →
      existing.localRecord = false → world.row.localRecord = false →
        leave.state = world.leave.state ∧
          ∀ pass phase, world.passes pass = some phase → phase.replaying = false
  | .settleDeny deny ok => ok = true → world.denies deny = some (.settling true) →
      world.row.localRecord = true ∨ world.row.state = .refuse
  | _ => True

/-! ## What is kept -/

/-- No pass is in an attempt. -/
def Quiet (passes : ℕ → Option Phase) : Prop :=
  ∀ pass phase, passes pass = some phase → phase.attempting = false

/-- The leave when no pass is in an attempt. -/
def Rest (row : Row) (state : String) (begun : Bool) : Prop :=
  state = "refuse" ∧ (Adopted row → begun = true) ∨ state = "validate" ∧ Adopted row

/-- What a pass knows of the row and of the leave. -/
def PhaseSound (row : Row) (state : String) (begun : Bool) : Phase → Prop
  | .resetting => state = "refuse" ∧ (Adopted row → begun = true)
  | .approving _ | .acting _ _ | .refusing => Adopted row → begun = true
  | .adopting false => (Adopted row → begun = true) ∧ (row.localRecord = true → state = "validate")
  | .adopting true => row.localRecord = false
  | .undoing => row.localRecord = false ∧ (Adopted row → begun = true)
  | .chosen | .suppressing | .unsuppressing => True

structure Sound (before : Notes) (world : World) : Prop where
  row : IsLocal world.row ∨ Adopted world.row ∨ Settled world.row
  approved : world.begun = false → world.row.state = .validate
  denied : world.denied = true → Settled world.row
  alone : ∀ first second phase other, world.passes first = some phase →
    world.passes second = some other → phase.attempting = true → other.attempting = true →
      first = second
  rest : Quiet world.passes → Rest world.row world.leave.state world.begun ∧
    ∀ deny, world.denies deny = some (.settling false) → world.leave.state = "refuse"
  phase : ∀ pass phase, world.passes pass = some phase →
    PhaseSound world.row world.leave.state world.begun phase
  denies : ∀ deny state, world.denies deny = some state → world.begun = true ∧
    (state ≠ .settling true → world.row.localRecord = false)
  reads : ∀ poll leave existing, world.polls poll = some (.read leave existing) →
    existing.localRecord = false → world.row.localRecord = false ∧
      (world.begun = false → existing.state = .validate)
  notifies : ∀ poll old new, world.polls poll = some (.notifying old new) → world.begun = true
  notes : world.begun = false → ∀ kind, world.notes kind = some false → before kind = some false

variable {before : Notes} {world next : World}

variable {phase : Phase} {row : Row} {pass : ℕ}

variable {state : String}

/-- The phase of a pass that is not in an attempt does not depend on the leave. -/
theorem PhaseSound.other {row' : Row} {state' : String} {begun begun' : Bool}
    (sound : PhaseSound row state begun phase) (quiet : phase.attempting = false)
    (kept : row.localRecord = false → row'.localRecord = false) :
    PhaseSound row' state' begun' phase := by
  match phase with
  | .adopting true => exact kept sound
  | .chosen | .suppressing | .unsuppressing => trivial

/-- A pass moves on and may change the leave. -/
theorem Sound.move (sound : Sound before world) (pass : ℕ) (state : String) (phase : Option Phase)
    (alone : ∀ held ∈ phase, held.attempting = true →
      ∀ other ≠ pass, ∀ held, world.passes other = some held → held.attempting = false)
    (others : state = world.leave.state ∨ ∃ held ∈ world.passes pass, held.attempting = true)
    (holds : ∀ held ∈ phase, PhaseSound world.row state world.begun held)
    (rest : (∀ held ∈ phase, held.attempting = false) →
      (∀ other ≠ pass, ∀ held, world.passes other = some held → held.attempting = false) →
        Rest world.row state world.begun ∧
          ∀ deny, world.denies deny = some (.settling false) → state = "refuse") :
    Sound before ((world.setLeave state).setPass pass phase) where
  row := sound.row
  approved := sound.approved
  denied := sound.denied
  alone := by
    intro first second held other
    change Function.update world.passes pass phase first = some held →
      Function.update world.passes pass phase second = some other → _
    intro at' at'' attempting attempting'
    by_cases same : first = pass
    · by_cases same' : second = pass
      · exact same.trans same'.symm
      · rw [same, Function.update_self] at at'
        rw [Function.update_of_ne same'] at at''
        cases attempting'.symm.trans (alone held at' attempting second same' other at'')
    · rw [Function.update_of_ne same] at at'
      by_cases same' : second = pass
      · rw [same', Function.update_self] at at''
        cases attempting.symm.trans (alone other at'' attempting' first same held at')
      · rw [Function.update_of_ne same'] at at''
        exact sound.alone first second held other at' at'' attempting attempting'
  rest := by
    intro quiet
    refine rest (fun held at' => quiet pass held ?_) fun other differs held at' =>
      quiet other held ?_
    · exact (Function.update_self ..).trans at'
    · exact (Function.update_of_ne differs ..).trans at'
  phase := by
    intro other held at'
    change Function.update world.passes pass phase other = some held at at'
    by_cases same : other = pass
    · rw [same, Function.update_self] at at'
      exact holds held at'
    · rw [Function.update_of_ne same] at at'
      rcases others with unchanged | ⟨mine, at'', attempting⟩
      · rw [unchanged]
        exact sound.phase other held at'
      · refine (sound.phase other held at').other ?_ id
        by_contra also
        exact same (sound.alone other pass held mine at' at'' (Bool.not_eq_false _ ▸ also) attempting)
  denies := sound.denies
  reads := sound.reads
  notifies := sound.notifies
  notes := sound.notes

theorem Sound.others_quiet (sound : Sound before world) (held : world.passes pass = some phase)
    (attempting : phase.attempting = true) :
    ∀ other ≠ pass, ∀ phase, world.passes other = some phase → phase.attempting = false := by
  intro other differs mine at'
  by_contra also
  exact differs (sound.alone other pass mine phase at' held (Bool.not_eq_false _ ▸ also) attempting)

/-- In an attempt, a row that was handed back is one that a denial loaded. -/
theorem PhaseSound.begun {row : Row} {state : String} {begun : Bool} {phase : Phase}
    (sound : PhaseSound row state begun phase) (attempting : phase.attempting = true) :
    Adopted row → begun = true := by
  match phase with
  | .resetting => exact sound.2
  | .approving _ | .acting _ _ | .refusing => exact sound
  | .adopting false => exact sound.1
  | .undoing => exact sound.2

/-- An attempt goes on. -/
theorem Sound.continues (sound : Sound before world) {old : Phase}
    (held : world.passes pass = some old) (attempting : old.attempting = true)
    (goes : phase.attempting = true) (holds : PhaseSound world.row state world.begun phase) :
    Sound before ((world.setLeave state).setPass pass (some phase)) := by
  refine sound.move pass state (some phase) ?_ (.inr ⟨old, held, attempting⟩) ?_ ?_
  · exact fun _ _ _ => sound.others_quiet held attempting
  · rintro _ ⟨⟩
    exact holds
  · intro quiet
    cases goes.symm.trans (quiet phase rfl)

/-- An attempt ends with a refused leave. -/
theorem Sound.ends (sound : Sound before world) {pass : ℕ} {old : Phase}
    (held : world.passes pass = some old) (attempting : old.attempting = true) :
    Sound before ((world.setLeave "refuse").setPass pass none) := by
  refine sound.move pass "refuse" none nofun (.inr ⟨old, held, attempting⟩) nofun fun _ _ => ?_
  exact ⟨.inl ⟨rfl, (sound.phase pass old held).begun attempting⟩, fun _ _ => rfl⟩

/-- A pass that is in no attempt goes on. -/
theorem Sound.idles (sound : Sound before world) {phase : Option Phase}
    (idle : ∀ held ∈ world.passes pass, held.attempting = false)
    (goes : ∀ held ∈ phase, held.attempting = false)
    (holds : ∀ held ∈ phase, PhaseSound world.row world.leave.state world.begun held) :
    Sound before (world.setPass pass phase) := by
  refine sound.move pass world.leave.state phase ?_ (.inl rfl) holds fun _ others => ?_
  · intro held member attempting
    cases attempting.symm.trans (goes held member)
  · refine sound.rest fun other held at' => ?_
    by_cases same : other = pass
    · exact idle held (same ▸ at')
    · exact others other same held at'

/-- A pass stops. -/
theorem Sound.stops (sound : Sound before world) (unharmed : Unharmed world pass) :
    Sound before (world.setPass pass none) := by
  cases held : world.passes pass with
  | none => exact sound.idles (fun _ member => nomatch held.symm.trans member) nofun nofun
  | some phase =>
      cases attempting : phase.attempting with
      | false =>
          refine sound.idles ?_ nofun nofun
          intro other member
          obtain rfl := Option.some.inj (held.symm.trans member)
          exact attempting
      | true =>
          have refused : world.leave.state = "refuse" := by
            cases replaying : phase.replaying with
            | true => exact unharmed phase held replaying
            | false =>
                have known := sound.phase pass phase held
                match phase with
                | .resetting => exact known.1
          have ended := sound.ends held attempting
          rw [← refused] at ended
          exact ended

theorem round_attempting (rounds : ℕ) (state : String) : (round rounds state).attempting = true := by
  unfold round
  split <;> rfl

theorem round_sound {begun : Bool} (rounds : ℕ) (state : String)
    (known : Adopted row → begun = true) : PhaseSound row state begun (round rounds state) := by
  unfold round
  split
  · exact known
  · exact known
  · exact known
  · exact ⟨known, fun _ => rfl⟩
  · exact known

theorem Sound.not_local (sound : Sound before world) (taken : adoptRow world.row = none) :
    world.row.localRecord = false := by
  rcases sound.row with ⟨isLocal, approved⟩ | held | held
  · unfold adoptRow at taken
    rw [if_pos ⟨isLocal, approved⟩] at taken
    cases taken
  · exact held.1
  · exact held.1

/-- The row is handed back. -/
theorem Sound.adopt (sound : Sound before world) {validated : Bool}
    (held : world.passes pass = some (.adopting validated))
    (adopted : adoptRow world.row = some row) :
    Sound before ({ world with row }.setPass pass (some .suppressing)) := by
  obtain ⟨isLocal, rfl⟩ := Option.ite_some_none_eq_some.mp adopted
  have notBack : world.row.localRecord = false → False := fun back => by
    cases isLocal.1.symm.trans back
  have known := sound.phase pass _ held
  cases validated with
  | true => exact (notBack known).elim
  | false =>
  have others := sound.others_quiet held rfl
  have back : Adopted { world.row with localRecord := false } := ⟨rfl, isLocal.2⟩
  have quiet : ∀ other phase, Function.update world.passes pass (some .suppressing) other =
      some phase → phase.attempting = false := by
    intro other phase at'
    by_cases same : other = pass
    · rw [same, Function.update_self] at at'
      obtain rfl := Option.some.inj at'
      rfl
    · rw [Function.update_of_ne same] at at'
      exact others other same phase at'
  refine ⟨.inr (.inl back), fun _ => isLocal.2, ?_, ?_, ?_, ?_, ?_, ?_, sound.notifies,
    sound.notes⟩
  · intro denied
    exact (notBack (sound.denied denied).1).elim
  · intro first second phase other at' _ attempting _
    cases attempting.symm.trans (quiet first phase at')
  · intro _
    refine ⟨.inr ⟨known.2 isLocal.1, back⟩, fun deny refusing => ?_⟩
    exact (notBack ((sound.denies deny _ refusing).2 nofun)).elim
  · intro other phase at'
    change Function.update world.passes pass (some .suppressing) other = some phase at at'
    by_cases same : other = pass
    · rw [same, Function.update_self] at at'
      obtain rfl := Option.some.inj at'
      trivial
    · rw [Function.update_of_ne same] at at'
      exact (sound.phase other phase at').other (others other same phase at') fun _ => rfl
  · intro deny state at'
    exact ⟨(sound.denies deny state at').1, fun _ => rfl⟩
  · intro poll leave existing at' gone
    exact ⟨rfl, (sound.reads poll leave existing at' gone).2⟩

/-! ## Denials -/

theorem PhaseSound.denying {begun : Bool} (sound : PhaseSound row state begun phase) :
    PhaseSound row state true phase := by
  match phase with
  | .resetting => exact ⟨sound.1, fun _ => rfl⟩
  | .approving _ | .acting _ _ | .refusing => exact fun _ => rfl
  | .adopting false => exact ⟨fun _ => rfl, sound.2⟩
  | .adopting true => exact sound
  | .undoing => exact ⟨sound.1, fun _ => rfl⟩
  | .chosen | .suppressing | .unsuppressing => trivial

theorem Sound.setDeny (sound : Sound before world) (deny : ℕ) {state : Option Deny}
    (holds : ∀ held ∈ state, world.begun = true ∧
      (held ≠ .settling true → world.row.localRecord = false))
    (settles : Quiet world.passes → state = some (.settling false) → world.leave.state = "refuse") :
    Sound before (world.setDeny deny state) where
  row := sound.row
  approved := sound.approved
  denied := sound.denied
  alone := sound.alone
  rest := fun quiet => by
    obtain ⟨rest, refused⟩ := sound.rest quiet
    refine ⟨rest, fun other at' => ?_⟩
    change Function.update world.denies deny state other = some (.settling false) at at'
    by_cases same : other = deny
    · rw [same, Function.update_self] at at'
      exact settles quiet at'
    · rw [Function.update_of_ne same] at at'
      exact refused other at'
  phase := sound.phase
  denies := fun other held at' => by
    change Function.update world.denies deny state other = some held at at'
    by_cases same : other = deny
    · rw [same, Function.update_self] at at'
      exact holds held at'
    · rw [Function.update_of_ne same] at at'
      exact sound.denies other held at'
  reads := sound.reads
  notifies := sound.notifies
  notes := sound.notes

/-- A denial loads a row that is not settled. -/
theorem Sound.loadDeny (sound : Sound before world) (deny : ℕ) :
    Sound before ({ world with begun := true }.setDeny deny
      (some (if world.row.localRecord then .settling true else .refusing))) := by
  have begins : Sound before { world with begun := true } := {
    sound with
    approved := nofun
    rest := fun quiet => by
      obtain ⟨⟨refused, -⟩ | validated, settles⟩ := sound.rest quiet
      · exact ⟨.inl ⟨refused, fun _ => rfl⟩, settles⟩
      · exact ⟨.inr validated, settles⟩
    phase := fun pass phase held => (sound.phase pass phase held).denying
    denies := fun deny state held => ⟨rfl, (sound.denies deny state held).2⟩
    reads := fun poll leave existing held gone => ⟨(sound.reads poll leave existing held gone).1, nofun⟩
    notifies := fun _ _ _ _ => rfl
    notes := nofun }
  refine begins.setDeny deny ?_ fun _ same => ?_
  · rintro _ ⟨⟩
    refine ⟨rfl, fun refuses => ?_⟩
    by_contra isLocal
    exact refuses (if_pos (Bool.not_eq_false _ ▸ isLocal))
  · have same := Option.some.inj same
    split at same <;> cases same

/-- A denial refuses the leave in Odoo. -/
theorem Sound.refuseDeny (sound : Sound before world) {deny : ℕ}
    (held : world.denies deny = some .refusing) :
    Sound before ((world.setLeave "refuse").setDeny deny (some (.settling false))) := by
  obtain ⟨begun, gone⟩ := sound.denies deny _ held
  have refused : Sound before (world.setLeave "refuse") := {
    sound with
    rest := fun _ => ⟨.inl ⟨rfl, fun _ => begun⟩, fun _ _ => rfl⟩
    phase := fun pass phase at' => by
      have known := sound.phase pass phase at'
      match phase with
      | .resetting => exact ⟨rfl, known.2⟩
      | .approving _ | .acting _ _ | .refusing => exact known
      | .adopting false =>
          refine ⟨known.1, fun isLocal => ?_⟩
          cases isLocal.symm.trans (gone nofun)
      | .adopting true => exact known
      | .undoing => exact known
      | .chosen | .suppressing | .unsuppressing => trivial }
  refine refused.setDeny deny ?_ fun _ _ => rfl
  rintro _ ⟨⟩
  exact ⟨begun, fun _ => gone nofun⟩

theorem Settled.not_adopted (settled : Settled row) : ¬ Adopted row :=
  fun approved => nomatch approved.2.symm.trans settled.2

theorem PhaseSound.settled {row' : Row} {begun : Bool} (sound : PhaseSound row state begun phase)
    (settled : Settled row') : PhaseSound row' state begun phase := by
  have never : Adopted row' → begun = true := fun approved => (settled.not_adopted approved).elim
  match phase with
  | .resetting => exact ⟨sound.1, never⟩
  | .approving _ | .acting _ _ | .refusing => exact never
  | .adopting false =>
      exact ⟨never, fun isLocal => nomatch isLocal.symm.trans settled.1⟩
  | .adopting true => exact settled.1
  | .undoing => exact ⟨settled.1, never⟩
  | .chosen | .suppressing | .unsuppressing => trivial

/-- A denial settles the row. -/
theorem Sound.settleDeny (sound : Sound before world) {deny : ℕ} {loadedLocal : Bool}
    (held : world.denies deny = some (.settling loadedLocal))
    (inOrder : loadedLocal = true → world.row.localRecord = true ∨ world.row.state = .refuse) :
    Sound before ({ world with
      row := { world.row with state := .refuse, localRecord := false }
      denied := true }.setDeny deny none) := by
  have settled : Settled { world.row with state := .refuse, localRecord := false } := ⟨rfl, rfl⟩
  obtain ⟨begun, -⟩ := sound.denies deny _ held
  have refused : Quiet world.passes → world.leave.state = "refuse" := by
    intro quiet
    obtain ⟨rest, settles⟩ := sound.rest quiet
    cases loadedLocal with
    | false => exact settles deny held
    | true =>
        rcases rest with ⟨refused, -⟩ | ⟨-, gone, approved⟩
        · exact refused
        · rcases inOrder rfl with isLocal | refused
          · cases isLocal.symm.trans gone
          · cases approved.symm.trans refused
  have done : Sound before { world with
      row := { world.row with state := .refuse, localRecord := false }
      denied := true } := {
    row := .inr (.inr settled)
    approved := fun never => nomatch begun.symm.trans never
    denied := fun _ => settled
    alone := sound.alone
    rest := fun quiet =>
      ⟨.inl ⟨refused quiet, fun approved => (settled.not_adopted approved).elim⟩,
        fun _ _ => refused quiet⟩
    phase := fun pass phase at' => (sound.phase pass phase at').settled settled
    denies := fun deny state at' => ⟨(sound.denies deny state at').1, fun _ => rfl⟩
    reads := fun poll leave existing at' gone =>
      ⟨rfl, (sound.reads poll leave existing at' gone).2⟩
    notifies := sound.notifies
    notes := sound.notes }
  exact done.setDeny deny nofun nofun

/-! ## Polls -/

theorem Sound.setPoll (sound : Sound before world) (poll : ℕ) {state : Option Poll}
    (reads : ∀ leave existing, state = some (.read leave existing) →
      existing.localRecord = false → world.row.localRecord = false ∧
        (world.begun = false → existing.state = .validate))
    (notifies : ∀ old new, state = some (.notifying old new) → world.begun = true) :
    Sound before (world.setPoll poll state) := {
  sound with
  reads := fun other leave existing at' => by
    change Function.update world.polls poll state other = some (.read leave existing) at at'
    by_cases same : other = poll
    · rw [same, Function.update_self] at at'
      exact reads leave existing at'
    · rw [Function.update_of_ne same] at at'
      exact sound.reads other leave existing at'
  notifies := fun other old new at' => by
    change Function.update world.polls poll state other = some (.notifying old new) at at'
    by_cases same : other = poll
    · rw [same, Function.update_self] at at'
      exact notifies old new at'
    · rw [Function.update_of_ne same] at at'
      exact sound.notifies other old new at' }

theorem Sound.endPoll (sound : Sound before world) (poll : ℕ) :
    Sound before (world.setPoll poll none) :=
  sound.setPoll poll (fun _ _ same => nomatch same) fun _ _ same => nomatch same

/-- The leave when no pass may have changed it. -/
theorem Sound.at_rest (sound : Sound before world)
    (still : ∀ pass phase, world.passes pass = some phase → phase.replaying = false) :
    Rest world.row world.leave.state world.begun := by
  by_cases quiet : Quiet world.passes
  · exact (sound.rest quiet).1
  · unfold Quiet at quiet
    push Not at quiet
    obtain ⟨pass, phase, held, attempting⟩ := quiet
    have known := sound.phase pass phase held
    have waits := still pass phase held
    match phase with
    | .resetting => exact .inl known
    | .approving _ | .acting _ _ | .refusing | .adopting false | .undoing => cases waits
    | .adopting true | .chosen | .suppressing | .unsuppressing => exact absurd rfl attempting

/-- Other fields of the row change. -/
theorem Sound.recapture (sound : Sound before world)
    (same : row.localRecord = world.row.localRecord) (same' : row.state = world.row.state) :
    Sound before { world with row } where
  row := by simpa only [IsLocal, Adopted, Settled, same, same'] using sound.row
  approved := fun never => same'.trans (sound.approved never)
  denied := fun denied => by simpa only [Settled, same, same'] using sound.denied denied
  alone := sound.alone
  rest := fun quiet => by simpa only [Rest, Adopted, same, same'] using sound.rest quiet
  phase := fun pass phase held => by
    have known := sound.phase pass phase held
    match phase with
    | .resetting | .approving _ | .acting _ _ | .refusing | .adopting false | .adopting true |
      .undoing => simpa only [PhaseSound, Adopted, same, same'] using known
    | .chosen | .suppressing | .unsuppressing => trivial
  denies := fun deny state held => by simpa only [same] using sound.denies deny state held
  reads := fun poll leave existing held gone => by
    simpa only [same] using sound.reads poll leave existing held gone
  notifies := sound.notifies
  notes := sound.notes

/-- A poll mirrors a refused leave into a row that is no local record. -/
theorem Sound.refuse (sound : Sound before world) {row : Row} (settled : Settled row)
    (begun : world.begun = true) (refused : world.leave.state = "refuse") : Sound before { world with row } where
  row := .inr (.inr settled)
  approved := fun never => nomatch begun.symm.trans never
  denied := fun _ => settled
  alone := sound.alone
  rest := fun quiet =>
    ⟨.inl ⟨refused, fun approved => (settled.not_adopted approved).elim⟩, (sound.rest quiet).2⟩
  phase := fun pass phase held => (sound.phase pass phase held).settled settled
  denies := fun _ _ _ => ⟨begun, fun _ => settled.1⟩
  reads := fun _ _ _ _ _ => ⟨settled.1, fun never => nomatch begun.symm.trans never⟩
  notifies := sound.notifies
  notes := sound.notes

theorem mirror_state {shift : ShiftBounds} {leave : Leave} {state : RequestState}
    {captured : Captured} (mirrored : mirror shift leave = some (state, captured)) :
    RequestState.ofString leave.state = some state := by
  obtain ⟨state', taken, rest⟩ := Option.bind_eq_some_iff.mp mirrored
  obtain ⟨_, -, rest⟩ := Option.bind_eq_some_iff.mp rest
  obtain ⟨_, -, rest⟩ := Option.bind_eq_some_iff.mp rest
  obtain ⟨_, -, rest⟩ := Option.bind_eq_some_iff.mp rest
  obtain ⟨rfl, -⟩ := Prod.mk.inj (Option.some.inj rest)
  exact taken

theorem Sound.upsert (sound : Sound before world) (shift : ShiftBounds) {poll : ℕ} {leave : Leave}
    {existing : Row} (held : world.polls poll = some (.read leave existing)) (ok : Bool)
    (inOrder : InOrder world (.upsert poll ok)) :
    Sound before (upsertOne shift world poll leave existing ok) := by
  unfold upsertOne
  split
  · exact sound.endPoll poll
  rename_i notLocal
  have notLocal : existing.localRecord = false := Bool.not_eq_true _ ▸ notLocal
  split
  · exact sound.endPoll poll
  rename_i state captured mirrored
  split
  · exact sound.endPoll poll
  rename_i changes
  have written : ok = true := by
    by_contra failed
    exact changes (.inr (Bool.not_eq_true _ ▸ failed))
  obtain ⟨gone, approved⟩ := sound.reads poll leave existing held notLocal
  obtain ⟨current, still⟩ := inOrder written leave existing held notLocal gone
  have taken := mirror_state mirrored
  rw [current] at taken
  have rest := sound.at_rest still
  have mirrors : mirrorRow state captured world.row =
      { world.row with toCaptured := captured, state := state } :=
    if_neg (by rw [gone]; exact Bool.false_ne_true)
  rw [mirrors]
  rcases rest with ⟨refused, denying⟩ | ⟨validated, adopted⟩
  · rw [refused] at taken
    obtain rfl := Option.some.inj taken
    have begun : world.begun = true := by
      by_contra never
      have approved := sound.approved (Bool.not_eq_true _ ▸ never)
      exact never (denying ⟨gone, approved⟩)
    have settled : Settled { world.row with toCaptured := captured, state := .refuse } := ⟨gone, rfl⟩
    refine (sound.refuse settled begun refused).setPoll poll ?_ fun _ _ _ => begun
    intro leave' existing' same
    split at same <;> cases same
  · rw [validated] at taken
    obtain rfl := Option.some.inj taken
    have same : RequestState.validate = world.row.state := adopted.2.symm
    have kept : Sound before { world with
        row := { world.row with toCaptured := captured, state := .validate } } :=
      sound.recapture rfl same
    refine kept.setPoll poll ?_ ?_
    · intro leave' existing' same
      split at same <;> cases same
    · intro old new same
      obtain ⟨differs, same⟩ := Option.ite_none_right_eq_some.mp same
      by_contra never
      exact differs.2 (approved (Bool.not_eq_true _ ▸ never))

/-! ## Steps -/

theorem suppressResolution_shown {notes : Notes} {kind other : Kind}
    (shown : suppressResolution notes kind other = some false) : notes other = some false := by
  unfold suppressResolution at shown
  by_cases same : other = kind
  · rw [same, Function.update_self] at shown
    cases shown
  · rwa [Function.update_of_ne same] at shown

theorem unsuppressResolution_shown {notes : Notes} {kind other : Kind}
    (shown : unsuppressResolution notes kind other = some false) : notes other = some false := by
  unfold unsuppressResolution at shown
  split at shown
  · by_cases same : other = kind
    · rw [same, Function.update_self] at shown
      cases shown
    · rwa [Function.update_of_ne same] at shown
  · exact shown

theorem Sound.renote (sound : Sound before world) {notes : Notes}
    (shown : world.begun = false → ∀ kind, notes kind = some false → world.notes kind = some false) :
    Sound before { world with notes } :=
  { sound with
    notes := fun never kind held => sound.notes never kind (shown never kind held) }

/-- A pass reads the state of the leave. -/
theorem Sound.fetchState (sound : Sound before world)
    (inOrder : ∀ other phase, world.passes other = some phase → phase.attempting = false) :
    Sound before (world.setPass pass (some (attempt world.leave.state))) := by
  rcases (sound.rest inOrder).1 with ⟨refused, denying⟩ | ⟨validated, adopted⟩
  · rw [refused]
    refine sound.move pass world.leave.state (some .resetting)
      (fun _ _ _ other _ => inOrder other) (.inl rfl) ?_ fun quiet => nomatch quiet _ rfl
    rintro _ ⟨⟩
    exact ⟨refused, denying⟩
  · rw [validated]
    refine sound.idles (fun phase held => inOrder pass phase held) ?_ ?_
    · rintro _ ⟨⟩
      rfl
    · rintro _ ⟨⟩
      exact adopted.1

theorem Sound.idle_to (sound : Sound before world) {phase : Option Phase} {old : Phase}
    (held : world.passes pass = some old) (quiet : old.attempting = false)
    (goes : ∀ held ∈ phase, held.attempting = false)
    (holds : ∀ held ∈ phase, PhaseSound world.row world.leave.state world.begun held) :
    Sound before (world.setPass pass phase) := by
  refine sound.idles (fun other member => ?_) goes holds
  obtain rfl := Option.some.inj (held.symm.trans member)
  exact quiet

theorem Sound.step {shift : ShiftBounds} {action : Action} (sound : Sound before world)
    (inOrder : InOrder world action)
    (taken : LocalReplay.step shift world action = some next) : Sound before next := by
  cases action with
  | readRows pass =>
      obtain ⟨idle, rfl⟩ := Option.ite_some_none_eq_some.mp taken
      refine sound.idles (fun phase held => nomatch idle.1.symm.trans held) ?_ ?_
      · rintro _ ⟨⟩
        rfl
      · rintro _ ⟨⟩
        trivial
  | skip pass =>
      obtain ⟨held, rfl⟩ := Option.ite_some_none_eq_some.mp taken
      exact sound.idle_to held rfl nofun nofun
  | fetchState pass ok =>
      obtain ⟨held, rfl⟩ := Option.ite_some_none_eq_some.mp taken
      cases ok with
      | true => exact sound.fetchState (inOrder rfl)
      | false => exact sound.idle_to held rfl nofun nofun
  | reset pass ok =>
      obtain ⟨held, rfl⟩ := Option.ite_some_none_eq_some.mp taken
      have known := (sound.phase pass _ held).begun rfl
      cases ok with
      | true => exact sound.continues held rfl rfl known
      | false => exact sound.continues held rfl rfl known
  | readLeave pass ok =>
      simp only [LocalReplay.step] at taken
      split at taken
      swap
      · cases taken
      rename_i rounds held
      obtain rfl := Option.some.inj taken
      have known := (sound.phase pass _ held).begun rfl
      cases ok with
      | true =>
          exact sound.continues held rfl (round_attempting rounds world.leave.state)
            (round_sound rounds world.leave.state known)
      | false => exact sound.continues held rfl rfl known
  | act pass answer =>
      simp only [LocalReplay.step] at taken
      split at taken
      · rename_i held
        obtain rfl := Option.some.inj taken
        exact sound.continues held rfl rfl ((sound.phase pass _ held).begun rfl)
      · rename_i held
        obtain ⟨-, rfl⟩ := Option.ite_some_none_eq_some.mp taken
        exact sound.continues held rfl rfl ((sound.phase pass _ held).begun rfl)
      · cases taken
  | refuseAgain pass =>
      simp only [LocalReplay.step] at taken
      split at taken
      · rename_i held
        obtain rfl := Option.some.inj taken
        exact sound.ends held rfl
      · rename_i held
        obtain rfl := Option.some.inj taken
        exact sound.ends held rfl
      · cases taken
  | adopt pass ok =>
      simp only [LocalReplay.step] at taken
      split at taken
      swap
      · cases taken
      rename_i validated held
      cases ok with
      | false =>
          obtain rfl := Option.some.inj taken
          exact sound.stops (inOrder rfl)
      | true =>
          rw [if_pos rfl] at taken
          split at taken
          · rename_i row adopted
            obtain rfl := Option.some.inj taken
            exact sound.adopt held adopted
          · rename_i missed
            obtain rfl := Option.some.inj taken
            have gone := sound.not_local missed
            cases validated with
            | true => exact sound.idle_to held rfl nofun nofun
            | false =>
                exact sound.continues held rfl rfl ⟨gone, (sound.phase pass _ held).begun rfl⟩
  | suppress pass ok =>
      obtain ⟨held, rfl⟩ := Option.ite_some_none_eq_some.mp taken
      cases ok with
      | true =>
          have noted : Sound before { world with
              notes := suppressResolution world.notes .approved } :=
            sound.renote fun _ kind shown => suppressResolution_shown shown
          refine noted.idle_to held rfl ?_ ?_
          · rintro _ ⟨⟩
            rfl
          · rintro _ ⟨⟩
            trivial
      | false => exact sound.idle_to held rfl nofun nofun
  | unsuppress pass ok =>
      obtain ⟨held, rfl⟩ := Option.ite_some_none_eq_some.mp taken
      have noted : Sound before { world with
          notes := if ok then unsuppressResolution world.notes .denied else world.notes } := by
        refine sound.renote fun _ kind shown => ?_
        split at shown
        · exact unsuppressResolution_shown shown
        · exact shown
      exact noted.idle_to held rfl nofun nofun
  | die pass =>
      obtain ⟨_, -, rfl⟩ := Option.map_eq_some_iff.mp taken
      exact sound.stops inOrder
  | fetchLeaves poll =>
      obtain ⟨-, rfl⟩ := Option.ite_some_none_eq_some.mp taken
      refine sound.setPoll poll ?_ ?_
      · intro _ _ same
        cases same
      · intro _ _ same
        cases same
  | readExisting poll =>
      simp only [LocalReplay.step] at taken
      split at taken
      swap
      · cases taken
      obtain rfl := Option.some.inj taken
      refine sound.setPoll poll ?_ ?_
      · rintro _ _ ⟨⟩ gone
        exact ⟨gone, sound.approved⟩
      · intro _ _ same
        cases same
  | upsert poll ok =>
      simp only [LocalReplay.step] at taken
      split at taken
      swap
      · cases taken
      rename_i leave existing held
      obtain rfl := Option.some.inj taken
      exact sound.upsert shift held ok inOrder
  | notify poll enabled today ok =>
      simp only [LocalReplay.step] at taken
      split at taken
      swap
      · cases taken
      rename_i old new held
      obtain rfl := Option.some.inj taken
      have begun := sound.notifies poll old new held
      have noted : Sound before { world with
          notes := if ok then maybeNotifyResolution enabled today world.notes old new
            else world.notes } :=
        sound.renote fun never => nomatch begun.symm.trans never
      exact noted.endPoll poll
  | loadDeny deny =>
      obtain ⟨-, rfl⟩ := Option.ite_some_none_eq_some.mp taken
      split
      · rename_i terminal
        refine { sound with denied := fun _ => ?_ }
        rcases sound.row with ⟨-, approved⟩ | ⟨-, approved⟩ | settled
        · rw [approved] at terminal
          cases terminal
        · rw [approved] at terminal
          cases terminal
        · exact settled
      · exact sound.loadDeny deny
  | refuseDeny deny ok =>
      simp only [LocalReplay.step] at taken
      split at taken
      swap
      · cases taken
      rename_i held
      split at taken
      · split at taken
        swap
        · cases taken
        obtain rfl := Option.some.inj taken
        exact sound.refuseDeny held
      · obtain rfl := Option.some.inj taken
        exact sound.setDeny deny nofun nofun
  | settleDeny deny ok =>
      simp only [LocalReplay.step] at taken
      split at taken
      swap
      · cases taken
      rename_i loadedLocal held
      obtain rfl := Option.some.inj taken
      cases ok with
      | true =>
          refine sound.settleDeny held fun isLocal => inOrder rfl ?_
          rw [held, isLocal]
      | false => exact sound.setDeny deny nofun nofun

theorem Sound.initial {row : Row} (isLocal : IsLocal row) {leave : Leave}
    (refused : leave.state = "refuse") (notes : Notes) :
    Sound notes (World.initial row leave notes) where
  row := .inl isLocal
  approved := fun _ => isLocal.2
  denied := nofun
  alone := fun _ _ _ _ held => nomatch held
  rest := fun _ =>
    ⟨.inl ⟨refused, fun adopted => nomatch isLocal.1.symm.trans adopted.1⟩, fun _ _ => refused⟩
  phase := fun _ _ held => nomatch held
  denies := fun _ _ held => nomatch held
  reads := fun _ _ _ held => nomatch held
  notifies := fun _ _ _ held => nomatch held
  notes := fun _ _ shown => shown

theorem Sound.kept (sound : Sound before world) : Kept before world := by
  have quiet (idle : ∀ pass, world.passes pass = none) : Quiet world.passes :=
    fun pass phase held => nomatch (idle pass).symm.trans held
  refine ⟨sound.denied, fun denied idle validated => ?_, sound.approved, sound.notes,
    fun idle => ⟨fun validated => ?_, fun never adopted => ?_⟩⟩
  · rcases (sound.rest (quiet idle)).1 with ⟨refused, -⟩ | ⟨-, adopted⟩
    · exact absurd (refused.symm.trans validated) (by decide)
    · exact (sound.denied denied).not_adopted adopted
  · rcases (sound.rest (quiet idle)).1 with ⟨refused, -⟩ | ⟨-, adopted⟩
    · exact absurd (refused.symm.trans validated) (by decide)
    · exact adopted
  · rcases (sound.rest (quiet idle)).1 with ⟨-, denying⟩ | ⟨validated, -⟩
    · cases never.symm.trans (denying adopted)
    · exact validated

/-- If every step is in order, a denied request stays denied and its leave is refused, and a request
that nobody denies stays approved and shows no new decision. -/
theorem denial_wins (shift : ShiftBounds) {row : Row} (isLocal : IsLocal row) {leave : Leave}
    (refused : leave.state = "refuse") (notes : Notes) {world : World}
    (reachable : Reachable (World.initial row leave notes) (step shift) InOrder world) :
    Kept notes world := by
  have sound : Sound notes world := reachable.invariant (Sound.initial isLocal refused notes)
    fun _ _ _ sound inOrder taken => sound.step inOrder taken
  exact sound.kept

private def bounds : ShiftBounds := ⟨7, 15⟩

private def absence : Row := ⟨⟨5, 10, 10, .fullDay, none, none⟩, .validate, true, some 77⟩

private def refusedLeave : Leave :=
  ⟨"refuse", some 5, some 10, some 10, false, none, none, some 1, none⟩

/-- The state of a pass, of the row and of the leave, and whether the request is denied. -/
private def seen (world : World) : Option Phase × Row × String × Bool :=
  (world.passes 0, world.row, world.leave.state, world.denied)

/-- A denial that settles before the row is handed back. -/
theorem denial_wins_settled : ∃ world : World,
    seen world = (none, { absence with state := .refuse, localRecord := false }, "refuse", true) ∧
      Kept (fun _ => none) world := by
  have idle : ∀ other phase, Function.update (fun _ : ℕ => (none : Option Phase)) 0 (some .chosen)
      other = some phase → phase.attempting = false := by
    intro other phase held
    by_cases same : other = 0
    · rw [same, Function.update_self] at held
      obtain rfl := Option.some.inj held
      rfl
    · rw [Function.update_of_ne same] at held
      cases held
  have permitted : Permitted (step bounds) InOrder
      (World.initial absence refusedLeave fun _ => none)
      [.readRows 0, .fetchState 0 true, .reset 0 true, .readLeave 0 true, .act 0 (some "validate"),
        .readLeave 0 true, .loadDeny 0, .settleDeny 0 true, .adopt 0 true, .refuseAgain 0] := by
    refine ⟨trivial, ?_⟩
    rintro _ ⟨⟩
    refine ⟨fun _ => idle, ?_⟩
    rintro _ ⟨⟩
    refine ⟨trivial, ?_⟩
    rintro _ ⟨⟩
    refine ⟨trivial, ?_⟩
    rintro _ ⟨⟩
    refine ⟨trivial, ?_⟩
    rintro _ ⟨⟩
    refine ⟨trivial, ?_⟩
    rintro _ ⟨⟩
    refine ⟨trivial, ?_⟩
    rintro _ ⟨⟩
    refine ⟨fun _ _ => .inl rfl, fun _ _ => ⟨nofun, fun _ _ => ⟨trivial, fun _ _ => trivial⟩⟩⟩
  obtain ⟨world, ran, same⟩ : ∃ world, Transition.run (step bounds)
      (World.initial absence refusedLeave fun _ => none)
      [.readRows 0, .fetchState 0 true, .reset 0 true, .readLeave 0 true, .act 0 (some "validate"),
        .readLeave 0 true, .loadDeny 0, .settleDeny 0 true, .adopt 0 true, .refuseAgain 0] =
          some world ∧ seen world =
            (none, { absence with state := .refuse, localRecord := false }, "refuse", true) :=
    Option.map_eq_some_iff.mp (by decide +kernel)
  exact ⟨world, same, denial_wins bounds ⟨rfl, rfl⟩ rfl _
    (Reachable.initial.run_permitted permitted ran)⟩

/-- A denial that loaded the local record settles it after it was handed back, and a poll approves
it again. -/
theorem denial_undone : ¬ ∀ (shift : ShiftBounds) (row : Row), IsLocal row →
    ∀ leave : Leave, leave.state = "refuse" → ∀ (notes : Notes) (world : World),
      Reachable (World.initial row leave notes) (step shift) (fun _ _ => True) world →
        Kept notes world := by
  intro kept
  obtain ⟨world, ran, same⟩ : ∃ world, Transition.run (step bounds)
      (World.initial absence refusedLeave fun _ => none)
      [.readRows 0, .loadDeny 0, .fetchState 0 true, .reset 0 true, .readLeave 0 true,
        .act 0 (some "validate"), .readLeave 0 true, .adopt 0 true, .settleDeny 0 true,
        .suppress 0 true, .unsuppress 0 true, .fetchLeaves 0, .readExisting 0, .upsert 0 true] =
          some world ∧ seen world =
            (none, { absence with localRecord := false }, "validate", true) :=
    Option.map_eq_some_iff.mp (by decide +kernel)
  obtain ⟨-, same⟩ := Prod.mk.inj same
  obtain ⟨sameRow, same⟩ := Prod.mk.inj same
  obtain ⟨-, denied⟩ := Prod.mk.inj same
  have settled := (kept bounds absence ⟨rfl, rfl⟩ refusedLeave rfl (fun _ => none) world
    (Reachable.initial.run (fun _ _ _ => trivial) ran)).denied denied
  rw [sameRow] at settled
  cases settled.2

end PlantManager.TimeOff.LocalReplay

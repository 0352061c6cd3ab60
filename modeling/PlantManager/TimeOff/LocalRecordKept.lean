import PlantManager.TimeOff.LocalRecord

/-! # A local approval is kept

If the approve call goes through once it suppressed the popup, and no poll deletes the row that it
refused the leave of (`TimeOff.LocalRecord.InOrder`), the request ends approved here,
stays so until a manager denies it, and no denial is shown
(`TimeOff.LocalRecord.approval_kept`). A poll that selected the row before it was a
local record deletes it (`TimeOff.LocalRecord.approval_deleted`).
-/

namespace PlantManager.TimeOff.LocalRecord

open Transition

/-- What a local approval promises. -/
structure Kept (allowed : World → Action → Prop) (site : Site) (world : World) : Prop where
  /-- A local record is approved. -/
  approved : ∀ row ∈ world.row, row.localRecord = true → row.state = .validate
  /-- Only a manager who denies it changes it. -/
  stays : ∀ action next, allowed world action → step site world action = some next →
    ∀ row ∈ world.row, row.localRecord = true →
      next.row = some row ∨ ∃ deny, action = .settleDeny deny true
  /-- When the approve call refused the leave and is over, the request is approved here. -/
  recorded : world.refused = true → world.approve.isOver = true → world.denied = false →
    ∃ row ∈ world.row, row.state = .validate ∧ row.localRecord = true
  /-- Then no denial is shown. -/
  quiet : world.refused = true → world.notes .denied ≠ some false
  /-- When Odoo does not refuse the leave, the row keeps its state. -/
  row : ∀ action next, (∃ landed, action = .refuse (.raised landed)) ∨
    (∃ ok, action = .unsuppress ok) → step site world action = some next → next.row = world.row
  /-- Then a later denial is shown. -/
  shown : world.approve = .aborted → ∀ poll pass old new, world.polls poll =
    some (.notifying pass old new) → new.state = .refuse → old.state ≠ .draftCancel →
      ∀ today ≤ new.dateTo, ∀ next, step site world (.notify poll true today true) = some next →
        next.notes .denied = some false
  /-- A deny that loaded a local record does not refuse the leave. -/
  denies : ∀ deny row, world.denies deny = some (.refusing row) → row.localRecord = false

/-- The approve call goes through: the suppression, its undoing and the local write succeed, the
process does not die before the write that follows the call to Odoo, and a refusal that raises has
no effect. The row is there when the leave is refused, and no poll deletes it then. -/
def InOrder (world : World) : Action → Prop
  | .suppress ok => ok = true
  | .refuse .done => world.row.isSome
  | .refuse (.raised landed) => landed = false
  | .unsuppress ok => ok = true
  | .record ok => ok = true
  | .die => world.approve ≠ .unsuppressing ∧ world.approve ≠ .recording
  | .deleteRow _ ok => ok = true →
      world.approve ≠ .recording ∧ ∀ row ∈ world.row, row.localRecord = false
  | _ => True

variable {site : Site} {world next : World}

/-! ## Others -/

/-- The row is not a local record. -/
def NotLocal (row : Option Row) : Prop := ∀ held ∈ row, held.localRecord = false

theorem notLocal_none : NotLocal none := fun _ held => nomatch held

/-- What the approve call has done. -/
def PhaseSound (world : World) : Prop :=
  match world.approve with
  | .idle | .ended => world.refused = false
  | .pushing | .calling _ | .updating _ | .loading | .approving | .setting _ | .suppressing
  | .unsuppressing => world.refused = false ∧ NotLocal world.row
  | .refusing => world.refused = false ∧ NotLocal world.row ∧ world.notes .denied = some true
  | .recording => NotLocal world.row ∧ world.notes .denied = some true ∧ world.row.isSome
  | .recorded => world.notes .denied = some true ∧
      (world.denied = false → ∃ row ∈ world.row, row.state = .validate ∧ row.localRecord = true)
  | .aborted => world.refused = false ∧ world.notes .denied ≠ some true

/-- What others than the approve call can do to the request. -/
structure Others (world next : World) : Prop where
  approve : next.approve = world.approve
  refused : next.refused = world.refused
  row : ∀ row ∈ next.row, row.localRecord = true → world.row = some row
  kept : next.denied = true ∨
    next.denied = world.denied ∧ ∀ row ∈ world.row, row.localRecord = true → next.row = some row
  there : world.approve = .recording → world.row.isSome → next.row.isSome
  notes : next.notes .denied = some true ↔ world.notes .denied = some true

theorem Others.notLocal (others : Others world next) (notLocal : NotLocal world.row) :
    NotLocal next.row := by
  intro row held
  by_contra isLocal
  have isLocal : row.localRecord = true := eq_true_of_ne_false isLocal
  rw [notLocal row (others.row row held isLocal)] at isLocal
  cases isLocal

theorem Others.phase (others : Others world next) (sound : PhaseSound world) :
    PhaseSound next := by
  unfold PhaseSound at sound ⊢
  rw [others.approve, others.refused]
  cases phase : world.approve
  all_goals rw [phase] at sound
  case idle => exact sound
  case ended => exact sound
  case refusing =>
    exact ⟨sound.1, others.notLocal sound.2.1, others.notes.mpr sound.2.2⟩
  case recording =>
    exact ⟨others.notLocal sound.1, others.notes.mpr sound.2.1, others.there phase sound.2.2⟩
  case recorded =>
    refine ⟨others.notes.mpr sound.1, fun notDenied => ?_⟩
    rcases others.kept with denied | ⟨same, kept⟩
    · cases notDenied.symm.trans denied
    · obtain ⟨row, held, validated, isLocal⟩ := sound.2 (same.symm.trans notDenied)
      exact ⟨row, kept row held isLocal, validated, isLocal⟩
  case aborted => exact ⟨sound.1, others.notes.not.mpr sound.2⟩
  all_goals exact ⟨sound.1, others.notLocal sound.2⟩

/-- The request is as before. -/
theorem Others.refl (approve : next.approve = world.approve)
    (refused : next.refused = world.refused) (row : next.row = world.row)
    (denied : next.denied = world.denied) (notes : next.notes = world.notes) :
    Others world next where
  approve := approve
  refused := refused
  row := fun _ held _ => row.symm.trans held
  kept := .inr ⟨denied, fun _ held _ => row.trans held⟩
  there := fun _ there => row ▸ there
  notes := by rw [notes]

theorem createTimeOffNotification_true (notes : Notes) (kind : Kind) :
    createTimeOffNotification notes kind .denied = some true ↔ notes .denied = some true := by
  unfold createTimeOffNotification
  split
  · rename_i free
    rw [Function.update_apply]
    split
    · rename_i same
      rw [same, free]
      exact ⟨nofun, nofun⟩
    · rfl
  · rfl

theorem maybeNotifyResolution_true (enabled : Bool) (today : ℤ) (notes : Notes) (old new : Row) :
    maybeNotifyResolution enabled today notes old new .denied = some true ↔
      notes .denied = some true := by
  unfold maybeNotifyResolution
  cases enabled with
  | false => rfl
  | true =>
      cases resolutionKind new.state with
      | none => rfl
      | some kind =>
          rw [if_pos rfl]
          split
          · rfl
          · exact createTimeOffNotification_true notes kind

/-- A denial is shown unless it is suppressed. -/
theorem maybeNotifyResolution_denied {today : ℤ} {notes : Notes} {old new : Row}
    (refused : new.state = .refuse) (other : old.state ≠ .draftCancel) (ahead : today ≤ new.dateTo)
    (free : notes .denied ≠ some true) :
    maybeNotifyResolution true today notes old new .denied = some false := by
  have due : ¬ (old.state = .draftCancel ∨ new.dateTo < today) := by
    rintro (cancels | past)
    · exact other cancels
    · exact absurd ahead past.not_ge
  simp only [maybeNotifyResolution, refused, resolutionKind, if_true, if_neg due]
  unfold createTimeOffNotification
  split
  · exact Function.update_self _ _ _
  · rename_i held
    cases noted : notes .denied with
    | none => exact absurd noted held
    | some acknowledged =>
        cases acknowledged with
        | false => rfl
        | true => exact absurd noted free

/-- The mirror leaves local records out. -/
theorem mem_map_mirrorRow {state : RequestState} {captured : Captured} {row : Option Row}
    {held : Row} (member : held ∈ row.map (mirrorRow state captured))
    (isLocal : held.localRecord = true) : row = some held := by
  obtain ⟨before, rfl, rfl⟩ := Option.map_eq_some_iff.mp member
  unfold mirrorRow at isLocal ⊢
  split
  · rfl
  · rename_i other
    rw [if_neg other] at isLocal
    exact absurd isLocal other

theorem map_mirrorRow {state : RequestState} {captured : Captured} {row : Row}
    (isLocal : row.localRecord = true) :
    (some row).map (mirrorRow state captured) = some row := by
  exact congrArg some (if_pos isLocal)

theorem Others.upsertOne {poll : ℕ} {pass : Pass} {leave : Leave} {existing : Row} {ok : Bool} :
    Others world (upsertOne site.shift poll pass world leave existing ok) := by
  unfold LocalRecord.upsertOne
  split
  · exact .refl rfl rfl rfl rfl rfl
  · split
    · exact .refl rfl rfl rfl rfl rfl
    · split
      · exact .refl rfl rfl rfl rfl rfl
      · split
        · exact {
            approve := rfl
            refused := rfl
            row := fun row held isLocal => mem_map_mirrorRow held isLocal
            kept := .inr ⟨rfl, fun row held isLocal => by
              change world.row.map _ = some row
              rw [Option.mem_def.mp held, map_mirrorRow isLocal]⟩
            there := fun _ there => by
              change (world.row.map _).isSome
              rw [Option.isSome_map]
              exact there
            notes := Iff.rfl }
        · exact .refl rfl rfl rfl rfl rfl

theorem upsertOne_row {poll : ℕ} {pass : Pass} {leave : Leave} {existing row : Row} {ok : Bool}
    (held : world.row = some row) (isLocal : row.localRecord = true) :
    (upsertOne site.shift poll pass world leave existing ok).row = some row := by
  unfold upsertOne
  split
  · exact held
  · split
    · exact held
    · split
      · exact held
      · split
        · change world.row.map _ = some row
          rw [held, map_mirrorRow isLocal]
        · exact held

theorem upsertOne_denies {shift : ShiftBounds} {poll : ℕ} {pass : Pass} {leave : Leave}
    {existing : Row} {ok : Bool} :
    (upsertOne shift poll pass world leave existing ok).denies = world.denies := by
  unfold upsertOne
  split
  · rfl
  · split
    · rfl
    · split
      · rfl
      · split
        · rfl
        · rfl

/-! ## Steps -/

structure Sound (world : World) : Prop where
  approved : ∀ row ∈ world.row, row.localRecord = true → row.state = .validate
  denies : ∀ deny row, world.denies deny = some (.refusing row) → row.localRecord = false
  phase : PhaseSound world

/-- Others act, and no deny begins. -/
theorem Sound.others (sound : Sound world) (others : Others world next)
    (denies : ∀ deny row, next.denies deny = some (.refusing row) → row.localRecord = false) :
    Sound next where
  approved := fun row held isLocal => sound.approved row (others.row row held isLocal) isLocal
  denies := denies
  phase := others.phase sound.phase

/-- A deny goes on, or is over. -/
theorem Sound.setDeny (sound : Sound world) {deny : ℕ} {state : Option Deny}
    (known : ∀ row, state = some (.refusing row) → row.localRecord = false) :
    ∀ other row, (world.setDeny deny state).denies other = some (.refusing row) →
      row.localRecord = false := by
  intro other row held
  change Function.update world.denies deny state other = _ at held
  rw [Function.update_apply] at held
  split at held
  · exact known row held
  · exact sound.denies other row held

/-- The approve call goes on, and the request is as before. -/
theorem Sound.advance (sound : Sound world) {phase : Phase}
    (known : PhaseSound { world with approve := phase }) :
    Sound { world with approve := phase } :=
  ⟨sound.approved, sound.denies, known⟩

/-- A row that is not a local record is approved or not. -/
theorem NotLocal.approved {row : Option Row} (notLocal : NotLocal row) :
    ∀ held ∈ row, held.localRecord = true → held.state = .validate := by
  intro held member isLocal
  cases (notLocal held member).symm.trans isLocal

theorem NotLocal.map {row : Option Row} {change : Row → Row} (notLocal : NotLocal row)
    (same : ∀ row, (change row).localRecord = row.localRecord) : NotLocal (row.map change) := by
  intro held member
  obtain ⟨before, known, rfl⟩ := Option.map_eq_some_iff.mp member
  exact (same before).trans (notLocal before known)

theorem Sound.load (sound : Sound world) (idle : world.approve = .idle) :
    Sound { world with approve := loadRequest world.row } := by
  have phase := sound.phase
  simp only [PhaseSound, idle] at phase
  refine sound.advance ?_
  cases held : world.row with
  | none => exact phase
  | some row =>
      unfold loadRequest
      dsimp only
      split
      · rename_i pending
        have notLocal : NotLocal world.row := by
          intro other member
          obtain rfl := Option.some.inj (held.symm.trans member)
          by_contra isLocal
          rw [sound.approved row held (eq_true_of_ne_false isLocal)] at pending
          cases pending
        rw [← held]
        split
        · exact ⟨phase, notLocal⟩
        · exact ⟨phase, notLocal⟩
      · exact phase

theorem Sound.readPush (sound : Sound world) (pushing : world.approve = .pushing) :
    Sound { world with approve := pushOne world.row } := by
  have phase := sound.phase
  simp only [PhaseSound, pushing] at phase
  refine sound.advance ?_
  cases held : world.row with
  | none => exact ⟨phase.1, held ▸ phase.2⟩
  | some row =>
      rw [held] at phase
      unfold pushOne
      dsimp only
      split
      · exact phase
      · split
        · split
          · exact phase
          · exact phase
        · split
          · exact phase
          · exact phase
        · exact phase

theorem Sound.step {action : Action} (sound : Sound world) (inOrder : InOrder world action)
    (taken : LocalRecord.step site world action = some next) : Sound next := by
  have phase := sound.phase
  cases action with
  | load =>
      obtain ⟨_, rfl⟩ := Option.ite_some_none_eq_some.mp taken
      exact sound.load ‹_›
  | readPush =>
      obtain ⟨_, rfl⟩ := Option.ite_some_none_eq_some.mp taken
      exact sound.readPush ‹_›
  | dropRow =>
      obtain ⟨calling, taken⟩ := Option.ite_none_right_eq_some.mp taken
      simp only [PhaseSound, calling] at phase
      obtain rfl := Option.some.inj taken
      exact ⟨notLocal_none.approved, sound.denies, phase.1, notLocal_none⟩
  | callOdoo leave =>
      simp only [LocalRecord.step] at taken
      split at taken
      · rename_i push calling
        simp only [PhaseSound, calling] at phase
        obtain rfl := Option.some.inj taken
        exact ⟨sound.approved, sound.denies, phase⟩
      · cases taken
  | update =>
      simp only [LocalRecord.step] at taken
      split at taken
      · rename_i push updating
        simp only [PhaseSound, updating] at phase
        obtain rfl := Option.some.inj taken
        have notLocal : NotLocal (world.row.map fun row => push.apply site.leaveId row) :=
          phase.2.map fun row => by cases push <;> rfl
        exact ⟨notLocal.approved, sound.denies, phase.1, notLocal⟩
      · cases taken
  | failPush =>
      simp only [LocalRecord.step] at taken
      split at taken
      · rename_i calling
        simp only [PhaseSound, calling] at phase
        obtain rfl := Option.some.inj taken
        exact ⟨sound.approved, sound.denies, phase⟩
      · rename_i updating
        simp only [PhaseSound, updating] at phase
        obtain rfl := Option.some.inj taken
        exact ⟨sound.approved, sound.denies, phase⟩
      · cases taken
  | reload =>
      obtain ⟨loading, taken⟩ := Option.ite_none_right_eq_some.mp taken
      simp only [PhaseSound, loading] at phase
      obtain rfl := Option.some.inj taken
      refine sound.advance ?_
      split
      · exact phase
      · exact phase.1
  | approveLeave answer =>
      obtain ⟨approving, taken⟩ := Option.ite_none_right_eq_some.mp taken
      simp only [PhaseSound, approving] at phase
      obtain rfl := Option.some.inj taken
      refine sound.advance ?_
      split
      · exact phase
      · exact phase.1
      · split
        · exact phase
        · exact phase.1
  | setState =>
      simp only [LocalRecord.step] at taken
      split at taken
      · rename_i state setting
        simp only [PhaseSound, setting] at phase
        obtain rfl := Option.some.inj taken
        refine ⟨fun row held isLocal => ?_, sound.denies, phase.1⟩
        obtain ⟨before, -, rfl⟩ := Option.map_eq_some_iff.mp held
        cases isLocal
      · cases taken
  | suppress ok =>
      obtain ⟨suppressing, taken⟩ := Option.ite_none_right_eq_some.mp taken
      simp only [PhaseSound, suppressing] at phase
      obtain rfl := Option.some.inj taken
      obtain rfl : ok = true := inOrder
      refine ⟨sound.approved, sound.denies, phase.1, phase.2, ?_⟩
      change suppressResolution world.notes .denied .denied = some true
      exact Function.update_self _ _ _
  | refuse refusal =>
      obtain ⟨refusing, taken⟩ := Option.ite_none_right_eq_some.mp taken
      simp only [PhaseSound, refusing] at phase
      obtain ⟨odoo, -, rfl⟩ := Option.map_eq_some_iff.mp taken
      cases refusal with
      | done => exact ⟨sound.approved, sound.denies, phase.2.1, phase.2.2, inOrder⟩
      | raised landed =>
          obtain rfl : landed = false := inOrder
          refine ⟨sound.approved, sound.denies, ?_, phase.2.1⟩
          rw [phase.1]
          rfl
  | unsuppress ok =>
      obtain ⟨unsuppressing, taken⟩ := Option.ite_none_right_eq_some.mp taken
      simp only [PhaseSound, unsuppressing] at phase
      obtain rfl := Option.some.inj taken
      obtain rfl : ok = true := inOrder
      refine ⟨sound.approved, sound.denies, phase.1, ?_⟩
      change unsuppressResolution world.notes .denied .denied ≠ some true
      unfold unsuppressResolution
      split
      · rw [Function.update_self]
        nofun
      · assumption
  | record ok =>
      obtain ⟨recording, taken⟩ := Option.ite_none_right_eq_some.mp taken
      simp only [PhaseSound, recording] at phase
      obtain rfl : ok = true := inOrder
      obtain rfl := Option.some.inj taken
      refine ⟨fun row held _ => ?_, sound.denies, phase.2.1, fun _ => ?_⟩
      · obtain ⟨before, -, rfl⟩ := Option.map_eq_some_iff.mp held
        rfl
      · obtain ⟨row, held⟩ := Option.isSome_iff_exists.mp phase.2.2
        exact ⟨_, Option.map_eq_some_iff.mpr ⟨row, held, rfl⟩, rfl, rfl⟩
  | die =>
      obtain ⟨running, taken⟩ := Option.ite_none_left_eq_some.mp taken
      obtain rfl := Option.some.inj taken
      refine sound.advance ?_
      unfold PhaseSound at phase
      cases at_ : world.approve
      all_goals rw [at_] at phase running
      case recording => exact absurd at_ inOrder.2
      case recorded => exact absurd rfl running
      case idle => exact phase
      case ended => exact phase
      all_goals exact phase.1
  | odooChanges leave =>
      obtain rfl := Option.some.inj taken
      exact sound.others (.refl rfl rfl rfl rfl rfl) sound.denies
  | fetchLeaves poll listed deletes window =>
      obtain ⟨-, rfl⟩ := Option.ite_some_none_eq_some.mp taken
      exact sound.others (.refl rfl rfl rfl rfl rfl) sound.denies
  | readExisting poll | selectMissing poll =>
      simp only [LocalRecord.step] at taken
      split at taken
      · obtain rfl := Option.some.inj taken
        exact sound.others (.refl rfl rfl rfl rfl rfl) sound.denies
      · cases taken
  | upsert poll ok =>
      simp only [LocalRecord.step] at taken
      split at taken
      · split at taken
        · obtain rfl := Option.some.inj taken
          refine sound.others Others.upsertOne ?_
          rw [upsertOne_denies]
          exact sound.denies
        · obtain rfl := Option.some.inj taken
          exact sound.others (.refl rfl rfl rfl rfl rfl) sound.denies
      · cases taken
  | notify poll enabled today ok =>
      simp only [LocalRecord.step] at taken
      split at taken
      · rename_i pass old new notifying
        obtain rfl := Option.some.inj taken
        refine sound.others ⟨rfl, rfl, fun row held _ => held, .inr ⟨rfl, fun row held _ => held⟩,
          fun _ there => there, ?_⟩ sound.denies
        cases ok with
        | false => rfl
        | true => exact maybeNotifyResolution_true enabled today world.notes old new
      · cases taken
  | deleteRow poll ok =>
      simp only [LocalRecord.step] at taken
      split at taken
      swap
      · cases taken
      obtain rfl := Option.some.inj taken
      cases ok with
      | false => exact sound.others (.refl rfl rfl rfl rfl rfl) sound.denies
      | true =>
          obtain ⟨early, notLocal⟩ := inOrder rfl
          refine sound.others ⟨rfl, rfl, fun _ held => (nomatch held),
            .inr ⟨rfl, fun row held isLocal => ?_⟩, fun recording => absurd recording early,
            Iff.rfl⟩ sound.denies
          cases (notLocal row held).symm.trans isLocal
  | loadDeny deny =>
      obtain ⟨-, rfl⟩ := Option.ite_some_none_eq_some.mp taken
      refine sound.others (.refl rfl rfl rfl rfl rfl) (sound.setDeny fun row refuses => ?_)
      split at refuses
      · cases refuses
      · split at refuses
        · cases refuses
        · split at refuses
          · rename_i notLocal
            obtain rfl := Deny.refusing.inj (Option.some.inj refuses)
            exact notLocal.2
          · cases refuses
  | refuseDeny deny refusal =>
      simp only [LocalRecord.step] at taken
      split at taken
      swap
      · cases taken
      obtain ⟨odoo, -, rfl⟩ := Option.map_eq_some_iff.mp taken
      refine sound.others (.refl rfl rfl rfl rfl rfl) ?_
      have refused : Sound { world with odoo } := ⟨sound.approved, sound.denies, phase⟩
      refine refused.setDeny ?_
      intro row refuses
      split at refuses <;> cases refuses
  | settleDeny deny ok =>
      simp only [LocalRecord.step] at taken
      split at taken
      swap
      · cases taken
      split at taken
      · obtain rfl := Option.some.inj taken
        refine sound.others ⟨rfl, rfl, fun row held isLocal => ?_, .inl rfl, fun _ there => ?_,
          Iff.rfl⟩ (sound.setDeny fun _ held => nomatch held)
        · obtain ⟨before, -, rfl⟩ := Option.map_eq_some_iff.mp held
          cases isLocal
        · change (world.row.map _).isSome
          rw [Option.isSome_map]
          exact there
      · obtain rfl := Option.some.inj taken
        exact sound.others (.refl rfl rfl rfl rfl rfl) (sound.setDeny fun _ held => nomatch held)

/-- A step that is no denial leaves a local record as it is. -/
theorem Sound.stays {action : Action} (sound : Sound world) (inOrder : InOrder world action)
    (taken : LocalRecord.step site world action = some next) {row : Row}
    (held : world.row = some row) (isLocal : row.localRecord = true) :
    next.row = some row ∨ ∃ deny, action = .settleDeny deny true := by
  have busy : ¬ NotLocal world.row := fun notLocal => by
    cases (notLocal row held).symm.trans isLocal
  have phase := sound.phase
  cases action with
  | load | readPush | reload | approveLeave answer | suppress ok | unsuppress ok
  | fetchLeaves poll listed deletes window | loadDeny deny =>
      obtain ⟨-, rfl⟩ := Option.ite_some_none_eq_some.mp taken
      exact .inl held
  | dropRow =>
      obtain ⟨calling, taken⟩ := Option.ite_none_right_eq_some.mp taken
      simp only [PhaseSound, calling] at phase
      exact absurd phase.2 busy
  | callOdoo leave | readExisting poll | notify poll enabled today ok | selectMissing poll =>
      simp only [LocalRecord.step] at taken
      split at taken
      · obtain rfl := Option.some.inj taken
        exact .inl held
      · cases taken
  | update =>
      simp only [LocalRecord.step] at taken
      split at taken
      · rename_i push updating
        simp only [PhaseSound, updating] at phase
        exact absurd phase.2 busy
      · cases taken
  | failPush =>
      simp only [LocalRecord.step] at taken
      split at taken
      · obtain rfl := Option.some.inj taken
        exact .inl held
      · obtain rfl := Option.some.inj taken
        exact .inl held
      · cases taken
  | setState =>
      simp only [LocalRecord.step] at taken
      split at taken
      · rename_i state setting
        simp only [PhaseSound, setting] at phase
        exact absurd phase.2 busy
      · cases taken
  | refuse refusal =>
      obtain ⟨-, taken⟩ := Option.ite_none_right_eq_some.mp taken
      obtain ⟨odoo, -, rfl⟩ := Option.map_eq_some_iff.mp taken
      exact .inl held
  | record ok =>
      obtain ⟨recording, taken⟩ := Option.ite_none_right_eq_some.mp taken
      simp only [PhaseSound, recording] at phase
      exact absurd phase.1 busy
  | die =>
      obtain ⟨-, taken⟩ := Option.ite_none_left_eq_some.mp taken
      obtain rfl := Option.some.inj taken
      exact .inl held
  | odooChanges leave =>
      obtain rfl := Option.some.inj taken
      exact .inl held
  | upsert poll ok =>
      simp only [LocalRecord.step] at taken
      split at taken
      · split at taken
        · obtain rfl := Option.some.inj taken
          exact .inl (upsertOne_row held isLocal)
        · obtain rfl := Option.some.inj taken
          exact .inl held
      · cases taken
  | deleteRow poll ok =>
      simp only [LocalRecord.step] at taken
      split at taken
      · obtain rfl := Option.some.inj taken
        cases ok with
        | false => exact .inl held
        | true => exact absurd (inOrder rfl).2 busy
      · cases taken
  | refuseDeny deny refusal =>
      simp only [LocalRecord.step] at taken
      split at taken
      · obtain ⟨odoo, -, rfl⟩ := Option.map_eq_some_iff.mp taken
        exact .inl held
      · cases taken
  | settleDeny deny ok =>
      cases ok with
      | true => exact .inr ⟨deny, rfl⟩
      | false =>
          simp only [LocalRecord.step] at taken
          split at taken
          · obtain rfl := Option.some.inj taken
            exact .inl held
          · cases taken

theorem Sound.kept (sound : Sound world) : Kept InOrder site world where
  approved := sound.approved
  stays := fun _ _ inOrder taken _ held isLocal => sound.stays inOrder taken held isLocal
  recorded := by
    intro refused ended notDenied
    have phase := sound.phase
    unfold PhaseSound at phase
    cases at_ : world.approve
    all_goals rw [at_] at phase ended
    case recorded => exact phase.2 notDenied
    case aborted => cases refused.symm.trans phase.1
    case ended => cases refused.symm.trans phase
    all_goals cases ended
  quiet := by
    intro refused
    have phase := sound.phase
    unfold PhaseSound at phase
    cases at_ : world.approve
    all_goals rw [at_] at phase
    case recording =>
      rw [phase.2.1]
      simp
    case recorded =>
      rw [phase.1]
      simp
    case idle => cases refused.symm.trans phase
    case ended => cases refused.symm.trans phase
    all_goals cases refused.symm.trans phase.1
  row := by
    rintro action next (⟨landed, rfl⟩ | ⟨ok, rfl⟩) taken
    · simp only [LocalRecord.step] at taken
      obtain ⟨-, taken⟩ := Option.ite_none_right_eq_some.mp taken
      obtain ⟨odoo, -, rfl⟩ := Option.map_eq_some_iff.mp taken
      rfl
    · simp only [LocalRecord.step] at taken
      obtain ⟨-, rfl⟩ := Option.ite_some_none_eq_some.mp taken
      rfl
  shown := by
    intro aborted poll pass old new notifying refused other today ahead next taken
    have phase := sound.phase
    simp only [PhaseSound, aborted] at phase
    simp only [LocalRecord.step, notifying] at taken
    obtain rfl := Option.some.inj taken
    exact maybeNotifyResolution_denied refused other ahead phase.2
  denies := sound.denies

/-- If the approve call goes through and no poll deletes the row of the leave that it refused, the
promise of a local approval is kept. -/
theorem approval_kept (site : Site) {row : Option Row}
    (approved : ∀ held ∈ row, held.localRecord = true → held.state = .validate)
    (odoo : Option Leave) (notes : Notes) {world : World}
    (reachable : Reachable (World.initial row odoo notes) (step site) InOrder world) :
    Kept InOrder site world := by
  have start : Sound (World.initial row odoo notes) :=
    ⟨approved, fun _ _ held => (nomatch held), rfl⟩
  have sound : Sound world := reachable.invariant start
    fun _ _ _ sound inOrder taken => sound.step inOrder taken
  exact sound.kept

private def plant : Site := ⟨⟨7, 15⟩, 77⟩

private def request : Row :=
  ⟨⟨5, 10, 10, .fullDay, none, none⟩, .draft, false, none⟩

private def leave : Leave :=
  ⟨"confirm", some 5, some 10, some 10, false, none, none, some 1, none⟩

/-- A request that Odoo does not validate. -/
theorem approval_kept_recorded : ∃ world : World, world.refused = true ∧
    world.approve = .recorded ∧ Kept InOrder plant world := by
  have permitted : Permitted (step plant) InOrder (World.initial (some request) none fun _ => none)
      [.load, .readPush, .callOdoo (some leave), .update, .reload, .approveLeave (.error true),
        .suppress true, .refuse .done, .record true] := by
    refine ⟨trivial, ?_⟩
    rintro _ ⟨⟩
    refine ⟨trivial, ?_⟩
    rintro _ ⟨⟩
    refine ⟨trivial, ?_⟩
    rintro _ ⟨⟩
    refine ⟨trivial, ?_⟩
    rintro _ ⟨⟩
    refine ⟨trivial, ?_⟩
    rintro _ ⟨⟩
    refine ⟨trivial, ?_⟩
    rintro _ ⟨⟩
    refine ⟨rfl, ?_⟩
    rintro _ ⟨⟩
    exact ⟨rfl, fun _ _ => ⟨rfl, fun _ _ => trivial⟩⟩
  obtain ⟨world, ran, refused, recorded⟩ : ∃ world, Transition.run (step plant)
      (World.initial (some request) none fun _ => none)
      [.load, .readPush, .callOdoo (some leave), .update, .reload, .approveLeave (.error true),
        .suppress true, .refuse .done, .record true] = some world ∧
        world.refused = true ∧ world.approve = .recorded :=
    ⟨_, rfl, rfl, rfl⟩
  have approved : ∀ held ∈ some request, held.localRecord = true → held.state = .validate := by
    rintro _ ⟨⟩ ⟨⟩
  exact ⟨world, refused, recorded, approval_kept plant approved none _
    (Reachable.initial.run_permitted permitted ran)⟩

/-- A pass fetched before the leave was created, and selected the row before it was a local
record. -/
theorem approval_deleted : ¬ ∀ (site : Site) (row : Option Row),
    (∀ held ∈ row, held.localRecord = true → held.state = .validate) →
      ∀ (odoo : Option Leave) (notes : Notes) (world : World),
        Reachable (World.initial row odoo notes) (step site) (fun _ _ => True) world →
          Kept (fun _ _ => True) site world := by
  intro kept
  have approved : ∀ held ∈ some request, held.localRecord = true → held.state = .validate := by
    rintro _ ⟨⟩ ⟨⟩
  obtain ⟨world, ran, held⟩ : ∃ world, Transition.run (step plant)
      (World.initial (some request) none fun _ => none)
      [.fetchLeaves 0 true true (0, 20), .load, .readPush, .callOdoo (some leave), .update, .reload,
        .approveLeave (.error true), .readExisting 0, .upsert 0 true, .selectMissing 0,
        .suppress true, .refuse .done, .record true] = some world ∧
        world.row = some ⟨⟨5, 10, 10, .fullDay, none, none⟩, .validate, true, some 77⟩ ∧
        ∃ next, step plant world (.deleteRow 0 true) = some next ∧ next.row = none :=
    ⟨_, rfl, rfl, _, rfl, rfl⟩
  obtain ⟨held, next, taken, deleted⟩ := held
  rcases (kept plant (some request) approved none (fun _ => none) world
    (Reachable.initial.run (fun _ _ _ => trivial) ran)).stays (.deleteRow 0 true) next trivial taken
      _ held rfl with same | ⟨deny, ⟨⟩⟩
  cases deleted.symm.trans same

end PlantManager.TimeOff.LocalRecord

import PlantManager.Attendance.ProjectionReference
import PlantManager.Attendance.Rollout

/-! # The gates of the rollout

Every stored config can be parsed, live becomes active only at its boundary with a ready report,
and stays active until a rollback is decided at the boundary it was saved with. A rejected
rollback leaves the activation as the cutover: `Attendance.Rollout.rollout_gates`.
-/

namespace PlantManager.Attendance.Rollout

open Checks Mapping Transition

variable {M : Type} {plant : Plant M}

/-- The configs that may be stored. -/
inductive Shaped : RolloutConfig → Prop
  | off : Shaped .off
  | shadow : Shaped .shadow
  | leaving {boundary checkedAt activatedAt : ℤ} {digest : String}
      (later : activatedAt < boundary) (signed : digest ≠ "") :
      Shaped ⟨.shadow, some boundary, some ⟨checkedAt, digest, some activatedAt⟩⟩
  | awaiting {cutover checkedAt : ℤ} {digest : String} (signed : digest ≠ "") :
      Shaped ⟨.live, some cutover, some ⟨checkedAt, digest, none⟩⟩
  | active {cutover checkedAt activatedAt : ℤ} {digest : String}
      (reached : cutover ≤ activatedAt) (signed : digest ≠ "") :
      Shaped ⟨.live, some cutover, some ⟨checkedAt, digest, some activatedAt⟩⟩

/-- When the gate that owns production was activated. -/
def RolloutConfig.activation (config : RolloutConfig) : Option ℤ :=
  if config.mode = .live ∨ config.mode = .shadow ∧ config.cutoverAt ≠ none then
    config.liveGate.bind LiveGate.activatedAt
  else none

/-- The boundary of a scheduled rollback. -/
def RolloutConfig.rollbackAt (config : RolloutConfig) : Option ℤ :=
  if config.mode = .shadow ∧ config.Activated then config.cutoverAt else none

def Tables.rollout (tables : Tables) : RolloutConfig := getRolloutConfig tables.config

/-- A setting that is not stored holds `off`. -/
def Tables.Holds (tables : Tables) (config : RolloutConfig) : Prop :=
  Shaped config ∧ (tables.config = some config.raw ∨ tables.config = none ∧ config = .off)

/-! ## Runs -/

/-- The steps; a save comes from the settings page, which hands over no gate. -/
inductive Action (M : Type) where
  | schedule (reading : Reading M) (cutover : ℤ) (requirements : Option (List (String × Bool)))
  | save (reading : Reading M) (mode : Mode) (cutoverAt : Option ℤ)
      (requirements : List (String × Bool))
  | activate (reading : Reading M)

/-- A rollback as it was saved, and the tables before it was scheduled. -/
structure SavedRollback where
  boundary : ℤ
  savedAt : ℤ
  schedule : Schedule
  before : Tables

/-- The tables, and the rollbacks that were saved, the last one first. -/
structure History where
  tables : Tables
  saved : List SavedRollback

/-- Note a saved rollback. One that replaces a scheduled rollback was scheduled before it. -/
def noteRollback (reading : Reading M) (history : History) (next : Tables) : List SavedRollback :=
  match next.rollout.rollbackAt with
  | none => history.saved
  | some boundary =>
      { boundary := boundary
        savedAt := reading.clock
        schedule := reading.shared
        before :=
          match history.tables.rollout.rollbackAt, history.saved with
          | some _, earlier :: _ => earlier.before
          | _, _ => history.tables } :: history.saved

/-- Take a step; one that raises is rolled back. -/
def step (plant : Plant M) (history : History) : Action M → Option History
  | .schedule reading cutover requirements =>
      (scheduleLiveCutover plant reading cutover requirements history.tables).toOption.map
        fun next => { history with tables := next }
  | .save reading mode cutoverAt requirements =>
      (saveNonLiveRollout plant reading ⟨mode, cutoverAt, none⟩ requirements
        history.tables).toOption.map fun next => ⟨next, noteRollback reading history next⟩
  | .activate reading =>
      (activateDueCutover plant reading history.tables).toOption.map
        fun decided => { history with tables := decided.2 }

/-! ## Stored configs -/

theorem parseMode_text (mode : Mode) : parseMode mode.text = .ok mode := by
  cases mode <;> rfl

theorem text_of_parseMode {text : String} {mode : Mode} (parsed : parseMode text = .ok mode) :
    text = mode.text := by
  unfold parseMode at parsed
  split at parsed
  · cases parsed
    assumption
  · split at parsed
    · cases parsed
      assumption
    · split at parsed
      · cases parsed
        assumption
      · cases parsed

theorem Shaped.signed {config : RolloutConfig} (shaped : Shaped config) :
    ∀ gate ∈ config.liveGate, gate.reportDigest ≠ "" := by
  intro gate found
  cases shaped with
  | off | shadow => cases found
  | leaving _ signed | awaiting signed | active _ signed =>
      obtain rfl := Option.some.inj found
      exact signed

theorem Shaped.validate {config : RolloutConfig} (shaped : Shaped config) :
    validateConfigShape config = .ok () := by
  cases shaped with
  | off | shadow | awaiting _ => rfl
  | leaving later _ | active reached _ => exact raiseIf_of_not (by omega) _

theorem shaped_of_validate {config : RolloutConfig} (valid : validateConfigShape config = .ok ())
    (signed : ∀ gate ∈ config.liveGate, gate.reportDigest ≠ "") : Shaped config := by
  obtain ⟨mode, cutoverAt, liveGate⟩ := config
  unfold validateConfigShape at valid
  dsimp only at valid signed
  split at valid
  · exact .off
  · exact .shadow
  · rename_i boundary gate
    obtain ⟨checkedAt, digest, activatedAt⟩ := gate
    cases activatedAt with
    | none => cases valid
    | some activatedAt =>
        exact .leaving (not_le.mp (raiseIf_eq_ok.mp valid)) (signed _ rfl)
  · rename_i cutover gate
    obtain ⟨checkedAt, digest, activatedAt⟩ := gate
    cases activatedAt with
    | none => exact .awaiting (signed _ rfl)
    | some activatedAt =>
        exact .active (not_lt.mp (raiseIf_eq_ok.mp valid)) (signed _ rfl)
  · cases valid

theorem parseConfig_raw {config : RolloutConfig} (shaped : Shaped config) :
    parseConfig config.raw = .ok config := by
  have signed : ¬∃ gate ∈ config.liveGate, gate.reportDigest = "" :=
    fun ⟨gate, found, unsigned⟩ => shaped.signed gate found unsigned
  unfold parseConfig
  rw [RolloutConfig.raw, parseMode_text]
  rw [raiseIf_of_not signed]
  change validateConfigShape config >>= _ = _
  rw [shaped.validate]
  rfl

theorem parseConfig_eq_ok {raw : RawConfig} {config : RolloutConfig}
    (parsed : parseConfig raw = .ok config) : raw = config.raw ∧ Shaped config := by
  obtain ⟨mode, named, parsed⟩ := bind_eq_ok.mp parsed
  obtain ⟨signed, parsed⟩ := raiseIf_bind_eq_ok.mp parsed
  obtain ⟨_, valid, same⟩ := bind_eq_ok.mp parsed
  obtain rfl := Except.ok.inj same
  refine ⟨?_, shaped_of_validate valid fun gate found unsigned => signed ⟨gate, found, unsigned⟩⟩
  rw [RolloutConfig.raw, ← text_of_parseMode named]

namespace Tables.Holds

variable {tables : Tables} {config : RolloutConfig}

theorem rollout (holds : tables.Holds config) : tables.rollout = config := by
  obtain ⟨shaped, stored | ⟨absent, rfl⟩⟩ := holds
  · rw [Tables.rollout, stored, getRolloutConfig, parseConfig_raw shaped]
  · rw [Tables.rollout, absent, getRolloutConfig]

theorem of_config (shaped : Shaped config) (stored : tables.config = some config.raw) :
    tables.Holds config := ⟨shaped, .inl stored⟩

theorem congr {next : Tables} (holds : tables.Holds config) (same : next.config = tables.config) :
    next.Holds config := by
  rw [Tables.Holds, same]
  exact holds

theorem unique {other : RolloutConfig} (holds : tables.Holds config)
    (others : tables.Holds other) : config = other :=
  holds.rollout.symm.trans others.rollout

theorem parses (holds : tables.Holds config) {raw : RawConfig} (stored : tables.config = some raw) :
    parseConfig raw = .ok config := by
  obtain ⟨shaped, found | ⟨absent, -⟩⟩ := holds
  · rw [stored] at found
    rw [Option.some.inj found]
    exact parseConfig_raw shaped
  · rw [stored] at absent
    cases absent

theorem of_lock (locked : lockRolloutConfig tables.config = .ok config) : tables.Holds config := by
  cases stored : tables.config with
  | none =>
      rw [stored] at locked
      cases locked
  | some raw =>
      rw [stored, lockRolloutConfig] at locked
      split at locked
      · rename_i parsed
        obtain rfl := Except.ok.inj locked
        obtain ⟨rfl, shaped⟩ := parseConfig_eq_ok parsed
        exact ⟨shaped, .inl stored⟩
      · cases locked

theorem of_lockOptional {locked : Option RolloutConfig}
    (found : lockOptionalRolloutConfig tables.config = .ok locked) :
    tables.Holds (locked.getD .off) := by
  cases stored : tables.config with
  | none =>
      rw [stored] at found
      obtain rfl := Except.ok.inj found
      exact ⟨.off, .inr ⟨stored, rfl⟩⟩
  | some raw =>
      rw [stored, lockOptionalRolloutConfig] at found
      obtain ⟨config, parsed, same⟩ := bind_eq_ok.mp found
      obtain rfl := Except.ok.inj same
      apply of_lock
      rw [stored]
      exact parsed

theorem matchState (holds : tables.Holds config) (calendar : Projection.PlantCalendar)
    (day now : ℤ) : matchStateForDay calendar tables day now =
      if day ∈ tables.strictDays then .strict
      else matchStateFromConfig calendar day config now := by
  unfold matchStateForDay
  obtain ⟨shaped, stored | ⟨absent, rfl⟩⟩ := holds
  · rw [stored]
    dsimp only
    rw [parseConfig_raw shaped]
  · rw [absent]

end Tables.Holds

theorem liveIsActive_iff (config : RolloutConfig) (now : ℤ) :
    LiveIsActive config now ↔ ∃ activatedAt ∈ config.activation, activatedAt ≤ now := by
  unfold LiveIsActive RolloutConfig.activation
  constructor
  · rintro ⟨gate, found, ⟨activatedAt, activated, reached⟩, owns⟩
    rw [if_pos owns]
    exact ⟨activatedAt, Option.mem_bind_iff.mpr ⟨gate, found, activated⟩, reached⟩
  · rintro ⟨activatedAt, activated, reached⟩
    obtain ⟨owns, activated⟩ := Option.ite_none_right_eq_some.mp activated
    obtain ⟨gate, found, activated⟩ := Option.mem_bind_iff.mp activated
    exact ⟨gate, found, ⟨activatedAt, activated, reached⟩, owns⟩

/-! ## What a step can do -/

/-- A shift start of a workday that is still to come. -/
structure FutureStart (plant : Plant M) (schedule : Schedule) (clock boundary : ℤ) : Prop where
  future : clock < boundary
  starts : plant.timeOf boundary = schedule.shiftStart (plant.dayOf boundary)
  worked : schedule.isWorkday (plant.dayOf boundary) = some true

theorem futureStart_of_validateRollback {schedule : Schedule} {clock : ℤ} {config : RolloutConfig}
    (valid : validateRollback plant schedule clock config = .ok ()) :
    ∃ boundary, config.cutoverAt = some boundary ∧ FutureStart plant schedule clock boundary := by
  unfold validateRollback at valid
  split at valid
  · cases valid
  · rename_i boundary found
    obtain ⟨_, starts, valid⟩ := bind_eq_ok.mp valid
    obtain ⟨_, worked, future⟩ := bind_eq_ok.mp valid
    refine ⟨boundary, found, not_le.mp (raiseIf_eq_ok.mp future),
      not_not.mp (raiseIf_eq_ok.mp starts), ?_⟩
    unfold validateConfiguredWorkday at worked
    split at worked
    · cases worked
    · rename_i told
      rw [told, Bool.eq_true_of_not_eq_false (raiseIf_eq_ok.mp worked)]

variable {next : Tables} {reading : Reading M} {activatedAt boundary : ℤ} {gate : LiveGate}
  {decided : CutoverActivationResult × Tables} {history : History}

theorem setRolloutConfig_eq_ok {schedule : Schedule} {clock : ℤ} {config : RolloutConfig}
    {tables : Tables} (saved : setRolloutConfig plant schedule clock config tables = .ok next) :
    next = { tables with config := some config.raw } ∧ validateConfigShape config = .ok () ∧
      (config.mode = .shadow ∧ config.Activated →
        validateRollback plant schedule clock config = .ok ()) := by
  obtain ⟨-, saved⟩ := raiseIf_bind_eq_ok.mp saved
  obtain ⟨_, -, saved⟩ := bind_eq_ok.mp saved
  obtain ⟨_, -, saved⟩ := bind_eq_ok.mp saved
  obtain ⟨_, rollback, saved⟩ := bind_eq_ok.mp saved
  obtain ⟨_, valid, same⟩ := bind_eq_ok.mp saved
  exact ⟨(Except.ok.inj same).symm, valid, onlyIf_eq_ok.mp rollback⟩

/-- What a step does to the config, the strict days and the queue. -/
inductive Moves (plant : Plant M) (tables next : Tables) : Action M → Prop
  | schedule {reading : Reading M} {cutover : ℤ} {requirements : Option (List (String × Bool))}
      {current : RolloutConfig} {digest : String} (held : tables.Holds current)
      (mode : current.mode = .shadow)
      (saved : next.Holds ⟨.live, some cutover, some ⟨reading.now, digest, none⟩⟩)
      (days : next.strictDays = tables.strictDays) :
      Moves plant tables next (.schedule reading cutover requirements)
  | plain {reading : Reading M} {mode : Mode} {cutoverAt : Option ℤ}
      {requirements : List (String × Bool)} {current config : RolloutConfig}
      (held : tables.Holds current) (unowned : current.activation = none)
      (saved : next.Holds config) (gateless : config.liveGate = none)
      (days : next.strictDays = tables.strictDays) :
      Moves plant tables next (.save reading mode cutoverAt requirements)
  | leave {reading : Reading M} {mode : Mode} {requirements : List (String × Bool)}
      {current : RolloutConfig} {gate : LiveGate} {activatedAt boundary : ℤ}
      (held : tables.Holds current) (owned : current.activation = some activatedAt)
      (carried : current.liveGate = some gate) (activated : gate.activatedAt = some activatedAt)
      (saved : next.Holds ⟨.shadow, some boundary, some gate⟩)
      (future : FutureStart plant reading.shared reading.clock boundary)
      (days : next.strictDays = tables.strictDays) :
      Moves plant tables next (.save reading mode (some boundary) requirements)
  | idle {reading : Reading M} (config : next.config = tables.config)
      (days : next.strictDays = tables.strictDays) : Moves plant tables next (.activate reading)
  | reject {reading : Reading M} {boundary activatedAt : ℤ} {gate restored : LiveGate}
      (held : tables.Holds ⟨.shadow, some boundary, some gate⟩)
      (activated : gate.activatedAt = some activatedAt)
      (saved : next.Holds ⟨.live, some activatedAt, some restored⟩)
      (kept : restored.activatedAt = some activatedAt)
      (days : next.strictDays = tables.strictDays) : Moves plant tables next (.activate reading)
  | finish {reading : Reading M} {boundary activatedAt : ℤ} {gate : LiveGate}
      (held : tables.Holds ⟨.shadow, some boundary, some gate⟩)
      (activated : gate.activatedAt = some activatedAt) (due : boundary ≤ reading.now)
      (saved : next.Holds .shadow) (days : next.strictDays = tables.strictDays) :
      Moves plant tables next (.activate reading)
  | block {reading : Reading M} {cutover : ℤ} {gate : LiveGate}
      (held : tables.Holds ⟨.live, some cutover, some gate⟩) (pending : gate.activatedAt = none)
      (saved : next.Holds .shadow) (days : next.strictDays = tables.strictDays) :
      Moves plant tables next (.activate reading)
  | activate {reading : Reading M} {cutover : ℤ} {gate given : LiveGate}
      (held : tables.Holds ⟨.live, some cutover, some gate⟩) (pending : gate.activatedAt = none)
      (due : cutover ≤ reading.now) (ready : (boundaryReport plant reading cutover).Ready)
      (saved : next.Holds ⟨.live, some cutover, some given⟩)
      (given : given.activatedAt = some reading.now)
      (days : next.strictDays = insert (plant.dayOf cutover) tables.strictDays)
      (queue : next.queue =
        (enqueueCutover (plant.dayOf cutover) reading.now tables).queue) :
      Moves plant tables next (.activate reading)

theorem moves_schedule {cutover : ℤ} {requirements : Option (List (String × Bool))}
    {tables : Tables}
    (taken : scheduleLiveCutover plant reading cutover requirements tables = .ok next) :
    Moves plant tables next (.schedule reading cutover requirements) := by
  obtain ⟨-, taken⟩ := raiseIf_bind_eq_ok.mp taken
  obtain ⟨_, -, taken⟩ := bind_eq_ok.mp taken
  obtain ⟨current, locked, taken⟩ := bind_eq_ok.mp taken
  obtain ⟨-, taken⟩ := raiseIf_bind_eq_ok.mp taken
  obtain ⟨mode, taken⟩ := raiseIf_bind_eq_ok.mp taken
  obtain ⟨-, taken⟩ := raiseIf_bind_eq_ok.mp taken
  obtain ⟨-, taken⟩ := raiseIf_bind_eq_ok.mp taken
  obtain ⟨-, taken⟩ := raiseIf_bind_eq_ok.mp taken
  obtain ⟨saved, stored, same⟩ := bind_eq_ok.mp taken
  obtain rfl := Except.ok.inj same
  obtain ⟨rfl, -, -⟩ := setRolloutConfig_eq_ok stored
  have signed := plant.reportDigest_ne (buildReport reading) cutover
  exact .schedule (Tables.Holds.of_lock locked) (not_not.mp mode)
    (.of_config (.awaiting signed) rfl) rfl

theorem activation_eq_some {config : RolloutConfig} (carried : config.liveGate = some gate)
    (activated : gate.activatedAt = some activatedAt)
    (owns : config.mode = .live ∨ config.mode = .shadow ∧ config.cutoverAt ≠ none) :
    config.activation = some activatedAt := by
  rw [RolloutConfig.activation, if_pos owns, carried]
  exact activated

theorem activation_of_active {cutover : ℤ} (activated : gate.activatedAt = some activatedAt) :
    RolloutConfig.activation ⟨.live, some cutover, some gate⟩ = some activatedAt :=
  activation_eq_some rfl activated (.inl rfl)

theorem activation_of_leaving (activated : gate.activatedAt = some activatedAt) :
    RolloutConfig.activation ⟨.shadow, some boundary, some gate⟩ = some activatedAt :=
  activation_eq_some rfl activated (.inr ⟨rfl, Option.some_ne_none boundary⟩)

theorem activation_of_pending {config : RolloutConfig} (carried : config.liveGate = some gate)
    (pending : gate.activatedAt = none) : config.activation = none := by
  rw [RolloutConfig.activation, carried, Option.bind_some, pending, ite_self]

theorem activation_of_gateless {config : RolloutConfig} (gateless : config.liveGate = none) :
    config.activation = none := by
  rw [RolloutConfig.activation, gateless, Option.bind_none, ite_self]

/-- A save replaces a config that does not own production, or carries the activated gate. -/
theorem resolveNonLive_eq_ok {now : ℤ} {current config resolved : RolloutConfig}
    (resolves : resolveNonLive now current config = .ok resolved) :
    current.activation = none ∧ resolved = config ∨
      ∃ gate activatedAt, current.activation = some activatedAt ∧ current.liveGate = some gate ∧
        gate.activatedAt = some activatedAt ∧ config.cutoverAt ≠ none ∧
        resolved = ⟨.shadow, config.cutoverAt, some gate⟩ := by
  obtain ⟨mode, cutoverAt, liveGate⟩ := current
  unfold resolveNonLive at resolves
  dsimp only at resolves
  split at resolves
  · rename_i cutover gate
    split at resolves
    · rename_i pending
      obtain ⟨-, same⟩ := raiseIf_bind_eq_ok.mp resolves
      exact .inl ⟨activation_of_pending rfl pending, (Except.ok.inj same).symm⟩
    · rename_i activatedAt activated
      obtain ⟨-, resolves⟩ := raiseIf_bind_eq_ok.mp resolves
      obtain ⟨chosen, same⟩ := raiseIf_bind_eq_ok.mp resolves
      exact .inr ⟨gate, activatedAt, activation_eq_some rfl activated (.inl rfl), rfl, activated,
        fun absent => chosen (.inr absent), (Except.ok.inj same).symm⟩
  · cases resolves
  · rename_i gate
    split at resolves
    · rename_i pending
      exact .inl ⟨activation_of_pending rfl pending, (Except.ok.inj resolves).symm⟩
    · cases resolves
    · rename_i activatedAt cutover activated
      obtain ⟨-, resolves⟩ := raiseIf_bind_eq_ok.mp resolves
      obtain ⟨chosen, same⟩ := raiseIf_bind_eq_ok.mp resolves
      exact .inr ⟨gate, activatedAt, activation_eq_some rfl activated (.inr ⟨rfl, nofun⟩), rfl,
        activated, fun absent => chosen (.inr absent), (Except.ok.inj same).symm⟩
  · rename_i notLive notGated _
    refine .inl ⟨?_, (Except.ok.inj resolves).symm⟩
    cases mode with
    | off => rfl
    | shadow =>
        cases liveGate with
        | none => exact activation_of_gateless rfl
        | some gate => exact (notGated gate rfl rfl).elim
    | live => exact (notLive rfl).elim

theorem moves_save {mode : Mode} {cutoverAt : Option ℤ} {requirements : List (String × Bool)}
    {tables : Tables}
    (taken : saveNonLiveRollout plant reading ⟨mode, cutoverAt, none⟩ requirements tables =
      .ok next) : Moves plant tables next (.save reading mode cutoverAt requirements) := by
  obtain ⟨-, taken⟩ := raiseIf_bind_eq_ok.mp taken
  obtain ⟨current, locked, taken⟩ := bind_eq_ok.mp taken
  obtain ⟨resolved, resolves, taken⟩ := bind_eq_ok.mp taken
  obtain ⟨saved, stored, same⟩ := bind_eq_ok.mp taken
  obtain rfl := Except.ok.inj same
  obtain ⟨rfl, valid, rollback⟩ := setRolloutConfig_eq_ok stored
  have held := Tables.Holds.of_lockOptional locked
  obtain ⟨unowned, rfl⟩ | ⟨gate, activatedAt, owned, carried, activated, chosen, rfl⟩ :=
    resolveNonLive_eq_ok resolves
  · have shaped := shaped_of_validate valid fun gate found => nomatch found
    exact .plain held unowned (.of_config shaped rfl) rfl rfl
  · obtain ⟨boundary, found, future⟩ := futureStart_of_validateRollback
      (rollback ⟨rfl, gate, rfl, by rw [activated]; exact Option.some_ne_none activatedAt⟩)
    subst found
    have shaped := shaped_of_validate valid fun other found =>
      held.1.signed other (carried.trans found)
    exact .leave held owned carried activated (.of_config shaped rfl) future rfl

theorem moves_rollback {tables : Tables} (held : tables.Holds ⟨.shadow, some boundary, some gate⟩)
    (activated : gate.activatedAt = some activatedAt)
    (taken : decideRollback plant reading boundary activatedAt tables = .ok decided) :
    Moves plant tables decided.2 (.activate reading) := by
  unfold decideRollback at taken
  split at taken
  · obtain rfl := Except.ok.inj taken
    exact .idle rfl rfl
  · rename_i due
    split at taken
    · rename_i blocker _
      obtain ⟨restored, stored, same⟩ := bind_eq_ok.mp taken
      obtain rfl := Except.ok.inj same
      obtain ⟨-, stored⟩ := raiseIf_bind_eq_ok.mp stored
      obtain ⟨_, -, stored⟩ := bind_eq_ok.mp stored
      obtain ⟨-, stored⟩ := raiseIf_bind_eq_ok.mp stored
      obtain ⟨-, stored⟩ := raiseIf_bind_eq_ok.mp stored
      obtain rfl := Except.ok.inj stored
      have signed := plant.reportDigest_ne ((buildReport reading).block blocker) activatedAt
      exact .reject held activated (.of_config (.active le_rfl signed) rfl) rfl rfl
    · obtain ⟨saved, stored, same⟩ := bind_eq_ok.mp taken
      obtain rfl := Except.ok.inj same
      obtain ⟨rfl, -, -⟩ := setRolloutConfig_eq_ok stored
      exact .finish held activated (not_lt.mp due) (.of_config .shadow rfl) rfl

theorem moves_cutover {cutover : ℤ} {tables : Tables}
    (held : tables.Holds ⟨.live, some cutover, some gate⟩)
    (taken : decideCutover plant reading cutover gate.activatedAt tables = .ok decided) :
    Moves plant tables decided.2 (.activate reading) := by
  unfold decideCutover at taken
  split at taken
  · obtain rfl := Except.ok.inj taken
    exact .idle rfl rfl
  · rename_i due
    split at taken
    · obtain rfl := Except.ok.inj taken
      unfold reportActive
      split <;> exact .idle rfl rfl
    · rename_i pending
      dsimp only at taken
      split at taken
      · rename_i ready
        obtain ⟨saved, stored, same⟩ := bind_eq_ok.mp taken
        obtain rfl := Except.ok.inj same
        obtain ⟨rfl, valid, -⟩ := setRolloutConfig_eq_ok stored
        have reached := not_lt.mp due
        have signed := plant.reportDigest_ne (boundaryReport plant reading cutover) cutover
        exact .activate held pending reached ready
          (.of_config (.active reached signed) rfl) rfl rfl rfl
      · obtain ⟨saved, stored, same⟩ := bind_eq_ok.mp taken
        obtain rfl := Except.ok.inj same
        obtain ⟨rfl, -, -⟩ := setRolloutConfig_eq_ok stored
        exact .block held pending (.of_config .shadow rfl) rfl

theorem moves_activate {tables : Tables}
    (taken : activateDueCutover plant reading tables = .ok decided) :
    Moves plant tables decided.2 (.activate reading) := by
  unfold activateDueCutover at taken
  split at taken
  · obtain rfl := Except.ok.inj taken
    exact .idle rfl rfl
  · rename_i config locked
    have held := Tables.Holds.of_lock locked
    obtain ⟨mode, cutoverAt, liveGate⟩ := config
    dsimp only at taken
    split at taken
    · split at taken
      · rename_i activated
        exact moves_rollback held activated taken
      · obtain rfl := Except.ok.inj taken
        exact .idle rfl rfl
    · exact moves_cutover held taken
    · obtain rfl := Except.ok.inj taken
      exact .idle rfl rfl

/-- The rollbacks that a step notes. -/
def notedBy (history : History) (next : Tables) : Action M → List SavedRollback
  | .save reading _ _ _ => noteRollback reading history next
  | _ => history.saved

variable {action : Action M}

theorem step_moves {next : History} (taken : step plant history action = some next) :
    Moves plant history.tables next.tables action ∧
      next.saved = notedBy history next.tables action := by
  cases action with
  | schedule reading cutover requirements =>
      obtain ⟨tables, saved, rfl⟩ := Option.map_eq_some_iff.mp taken
      exact ⟨moves_schedule (eq_ok_of_toOption saved), rfl⟩
  | save reading mode cutoverAt requirements =>
      obtain ⟨tables, saved, rfl⟩ := Option.map_eq_some_iff.mp taken
      exact ⟨moves_save (eq_ok_of_toOption saved), rfl⟩
  | activate reading =>
      obtain ⟨decided, saved, rfl⟩ := Option.map_eq_some_iff.mp taken
      exact ⟨moves_activate (eq_ok_of_toOption saved), rfl⟩

/-! ## The invariant -/

/-- The rollback was saved for a shift start then to come, with the gate activated at an instant
live, and the strict days as they are. -/
structure SavedRollback.Covers (plant : Plant M) (saved : SavedRollback) (activatedAt : ℤ)
    (strictDays : Finset ℤ) : Prop where
  future : FutureStart plant saved.schedule saved.savedAt saved.boundary
  live : ∃ cutover gate, saved.before.Holds ⟨.live, some cutover, some gate⟩ ∧
    gate.activatedAt = some activatedAt ∧
      (plant.dayOf cutover ∈ saved.before.strictDays ∨ cutover = activatedAt)
  days : saved.before.strictDays = strictDays

/-- An active cutover owns its day, and the last save noted the scheduled rollback. -/
structure Inv (plant : Plant M) (history : History) : Prop where
  parsed : ∃ config, history.tables.Holds config
  owned : ∀ cutover gate activatedAt, history.tables.Holds ⟨.live, some cutover, some gate⟩ →
    gate.activatedAt = some activatedAt →
      plant.dayOf cutover ∈ history.tables.strictDays ∨ cutover = activatedAt
  noted : ∀ boundary gate activatedAt, history.tables.Holds ⟨.shadow, some boundary, some gate⟩ →
    gate.activatedAt = some activatedAt →
      ∃ saved ∈ history.saved.head?, saved.boundary = boundary ∧
        saved.Covers plant activatedAt history.tables.strictDays

/-- A config without an activated gate asks for nothing. -/
theorem Inv.of_unactivated {history : History} {config : RolloutConfig}
    (held : history.tables.Holds config)
    (unactivated : ∀ gate ∈ config.liveGate, gate.activatedAt = none) : Inv plant history where
  parsed := ⟨config, held⟩
  owned cutover gate activatedAt holds activated := by
    obtain rfl := held.unique holds
    rw [unactivated gate rfl] at activated
    cases activated
  noted boundary gate activatedAt holds activated := by
    obtain rfl := held.unique holds
    rw [unactivated gate rfl] at activated
    cases activated

/-- An active cutover that owns its day asks for nothing else. -/
theorem Inv.of_active {history : History} {cutover activatedAt : ℤ} {gate : LiveGate}
    (held : history.tables.Holds ⟨.live, some cutover, some gate⟩)
    (activated : gate.activatedAt = some activatedAt)
    (owns : plant.dayOf cutover ∈ history.tables.strictDays ∨ cutover = activatedAt) :
    Inv plant history where
  parsed := ⟨_, held⟩
  owned other otherGate otherAt holds otherActivated := by
    cases held.unique holds
    obtain rfl := Option.some.inj (activated.symm.trans otherActivated)
    exact owns
  noted boundary otherGate otherAt holds _ := by
    cases held.unique holds

/-- A scheduled rollback that was noted asks for nothing else. -/
theorem Inv.of_leaving {history : History} {boundary activatedAt : ℤ} {gate : LiveGate}
    (held : history.tables.Holds ⟨.shadow, some boundary, some gate⟩)
    (activated : gate.activatedAt = some activatedAt)
    (noted : ∃ saved ∈ history.saved.head?, saved.boundary = boundary ∧
      saved.Covers plant activatedAt history.tables.strictDays) : Inv plant history where
  parsed := ⟨_, held⟩
  owned cutover otherGate otherAt holds _ := by
    cases held.unique holds
  noted other otherGate otherAt holds otherActivated := by
    cases held.unique holds
    obtain rfl := Option.some.inj (activated.symm.trans otherActivated)
    exact noted

theorem rollbackAt_of_leaving (activated : gate.activatedAt = some activatedAt) :
    RolloutConfig.rollbackAt ⟨.shadow, some boundary, some gate⟩ = some boundary := by
  apply if_pos
  refine ⟨rfl, gate, rfl, ?_⟩
  rw [activated]
  exact Option.some_ne_none activatedAt

theorem rollbackAt_of_live {cutoverAt : Option ℤ} {liveGate : Option LiveGate} :
    RolloutConfig.rollbackAt ⟨.live, cutoverAt, liveGate⟩ = none :=
  if_neg fun both => nomatch both.1

/-- A config that owns production is an active cutover or a scheduled rollback. -/
theorem Shaped.owner {config : RolloutConfig} (shaped : Shaped config)
    (owned : config.activation = some activatedAt) :
    ∃ instant gate, gate.activatedAt = some activatedAt ∧
      (config = ⟨.live, some instant, some gate⟩ ∨
        config = ⟨.shadow, some instant, some gate⟩) := by
  cases shaped with
  | off | shadow | awaiting _ => cases owned
  | leaving _ _ => exact ⟨_, _, owned, .inr rfl⟩
  | active _ _ => exact ⟨_, _, owned, .inl rfl⟩

theorem noteRollback_of_leaving (leaving : next.rollout.rollbackAt = some boundary)
    (before : Tables)
    (scheduled : before = match history.tables.rollout.rollbackAt, history.saved with
      | some _, earlier :: _ => earlier.before
      | _, _ => history.tables) :
    noteRollback reading history next =
      ⟨boundary, reading.clock, reading.shared, before⟩ :: history.saved := by
  rw [noteRollback, leaving, scheduled]

/-- A saved rollback is noted with the tables before it was scheduled. -/
theorem Inv.leave (inv : Inv plant history) {current : RolloutConfig}
    (held : history.tables.Holds current) (owned : current.activation = some activatedAt)
    (activated : gate.activatedAt = some activatedAt)
    (saved : next.Holds ⟨.shadow, some boundary, some gate⟩)
    (future : FutureStart plant reading.shared reading.clock boundary)
    (days : next.strictDays = history.tables.strictDays) :
    Inv plant ⟨next, noteRollback reading history next⟩ := by
  apply Inv.of_leaving saved activated
  have leaving : next.rollout.rollbackAt = some boundary := by
    rw [saved.rollout, rollbackAt_of_leaving activated]
  obtain ⟨instant, carried, same, rfl | rfl⟩ := held.1.owner owned
  · have here := inv.owned _ _ _ held same
    rw [noteRollback_of_leaving leaving history.tables (by
      rw [held.rollout, rollbackAt_of_live])]
    exact ⟨_, rfl, rfl, future, ⟨instant, carried, held, same, here⟩, days.symm⟩
  · obtain ⟨earlier, last, -, covers⟩ := inv.noted _ _ _ held same
    obtain ⟨rest, found⟩ := List.head?_eq_some_iff.mp last
    rw [noteRollback_of_leaving leaving earlier.before (by
      rw [held.rollout, rollbackAt_of_leaving same, found])]
    exact ⟨_, rfl, rfl, future, covers.live, covers.days.trans days.symm⟩

theorem inv_step {next : History} (inv : Inv plant history)
    (taken : step plant history action = some next) : Inv plant next := by
  obtain ⟨moves, noted⟩ := step_moves taken
  obtain ⟨tables, saved⟩ := next
  dsimp only at moves noted
  subst noted
  cases moves with
  | schedule _ _ stored _ =>
      exact .of_unactivated stored fun gate found => by rw [← Option.some.inj found]
  | plain _ _ stored gateless _ =>
      refine .of_unactivated stored fun gate found => ?_
      rw [gateless] at found
      cases found
  | leave held owned _ activated stored future days =>
      exact inv.leave held owned activated stored future days
  | idle config days =>
      obtain ⟨current, held⟩ := inv.parsed
      have back : ∀ {other}, tables.Holds other → history.tables.Holds other :=
        fun holds => holds.congr config.symm
      refine ⟨⟨current, held.congr config⟩, fun cutover gate activatedAt holds activated => ?_,
        fun boundary gate activatedAt holds activated => ?_⟩
      · rw [days]
        exact inv.owned cutover gate activatedAt (back holds) activated
      · rw [days]
        exact inv.noted boundary gate activatedAt (back holds) activated
  | reject _ _ stored kept _ => exact .of_active stored kept (.inr rfl)
  | finish _ _ _ stored _
  | block _ _ stored _ => exact .of_unactivated stored fun gate found => nomatch found
  | activate _ _ _ _ stored given days _ =>
      refine .of_active stored given (.inl ?_)
      rw [days]
      exact Finset.mem_insert_self _ _

/-! ## What a run keeps -/

/-- The day is recorded as strict and asked for again. -/
def Requeued (tables : Tables) (day now : ℤ) : Prop :=
  day ∈ tables.strictDays ∧ ∃ row, tables.queue.get day = some row ∧ row.completedAt = none ∧
    row.startedAt = none ∧ row.requestedAt ≤ now

/-- A step activates the pending cutover at its boundary, with a ready report. -/
def ActivatedBy (plant : Plant M) (history next : History) (activatedAt : ℤ) (action : Action M) :
    Prop :=
  ∃ reading cutover gate, action = .activate reading ∧
    history.tables.rollout = ⟨.live, some cutover, some gate⟩ ∧ cutover ≤ reading.now ∧
    (boundaryReport plant reading cutover).Ready ∧ activatedAt = reading.now ∧
    Requeued next.tables (plant.dayOf cutover) reading.now

/-- A step decides the scheduled rollback at its boundary, which was a shift start to come when
it was saved. -/
def RolledBackBy (plant : Plant M) (history next : History) (action : Action M) : Prop :=
  ∃ reading, action = .activate reading ∧ next.tables.rollout = .shadow ∧
    ∃ saved ∈ history.saved, history.tables.rollout.rollbackAt = some saved.boundary ∧
      saved.boundary ≤ reading.now ∧
      FutureStart plant saved.schedule saved.savedAt saved.boundary

/-- A live cutover is scheduled although a rollback is. -/
def ReplacesRollback (history : History) : Action M → Prop
  | .schedule _ _ _ => history.tables.rollout.rollbackAt ≠ none
  | _ => False

/-- The rollback that was rejected is gone, and what it would have taken from live is owned as
before it was scheduled, but for days between the cutover and its late activation. -/
def Restored (plant : Plant M) (history next : History) (boundary activatedAt : ℤ) : Prop :=
  next.tables.rollout.cutoverAt = some activatedAt ∧
    ∃ saved ∈ history.saved, saved.boundary = boundary ∧
      ∃ cutover gate, saved.before.rollout = ⟨.live, some cutover, some gate⟩ ∧
        gate.activatedAt = some activatedAt ∧
        ∀ day now, activatedAt ≤ now →
          ¬(plant.dayOf cutover < day ∧ day < plant.dayOf activatedAt) →
          matchStateForDay plant.toPlantCalendar next.tables day now =
            matchStateForDay plant.toPlantCalendar saved.before day now

structure KeepsGates (plant : Plant M) (history next : History) (action : Action M) : Prop where
  activates : ∀ activatedAt, history.tables.rollout.activation = none →
    next.tables.rollout.activation = some activatedAt →
      ActivatedBy plant history next activatedAt action
  stays : ∀ activatedAt, history.tables.rollout.activation = some activatedAt →
    next.tables.rollout.activation = some activatedAt ∨ RolledBackBy plant history next action ∨
      ReplacesRollback history action
  restores : ∀ boundary activatedAt, history.tables.rollout.rollbackAt = some boundary →
    next.tables.rollout.rollbackAt = none →
      next.tables.rollout.activation = some activatedAt →
        Restored plant history next boundary activatedAt

theorem matchState_of_activation (calendar : Projection.PlantCalendar) {cutover day now : ℤ}
    {restored : LiveGate} (reached : cutover ≤ activatedAt)
    (activated : gate.activatedAt = some activatedAt)
    (kept : restored.activatedAt = some activatedAt) (since : activatedAt ≤ now)
    (outside : ¬(calendar.dayOf cutover ≤ day ∧ day < calendar.dayOf activatedAt)) :
    matchStateFromConfig calendar day ⟨.live, some activatedAt, some restored⟩ now =
      matchStateFromConfig calendar day ⟨.live, some cutover, some gate⟩ now := by
  have ordered := calendar.dayOf_mono reached
  have active : ∀ instant held, LiveGate.activatedAt held = some activatedAt →
      LiveIsActive ⟨.live, some instant, some held⟩ now := fun instant held found =>
    (liveIsActive_iff _ now).mpr ⟨activatedAt, activation_of_active found, since⟩
  dsimp only [matchStateFromConfig]
  rw [if_pos (active _ _ kept), if_pos (active _ _ activated)]
  by_cases before : day < calendar.dayOf cutover
  · rw [if_pos (.inl (by omega)), if_pos (.inl before)]
  · rw [if_neg (by omega), if_neg (by omega)]

theorem Inv.restored {next : History} (inv : Inv plant history) {restored : LiveGate}
    (held : history.tables.Holds ⟨.shadow, some boundary, some gate⟩)
    (activated : gate.activatedAt = some activatedAt)
    (stored : next.tables.Holds ⟨.live, some activatedAt, some restored⟩)
    (kept : restored.activatedAt = some activatedAt)
    (days : next.tables.strictDays = history.tables.strictDays) :
    Restored plant history next boundary activatedAt := by
  obtain ⟨saved, last, same, covers⟩ := inv.noted boundary gate activatedAt held activated
  obtain ⟨cutover, before, live, activatedBefore, owns⟩ := covers.live
  refine ⟨by rw [stored.rollout], saved, List.mem_of_head? last, same, cutover, before,
    live.rollout, activatedBefore, fun day now since outside => ?_⟩
  rw [stored.matchState, live.matchState, days, ← covers.days]
  split
  · rfl
  · rename_i notStrict
    apply matchState_of_activation plant.toPlantCalendar ?_ activatedBefore kept since
    · rintro ⟨low, high⟩
      rcases owns with strict | rfl
      · have apart : plant.dayOf cutover ≠ day := fun same => notStrict (same ▸ strict)
        omega
      · omega
    · obtain ⟨_, digest, _⟩ := before
      cases live.1 with
      | awaiting => cases activatedBefore
      | active reached _ =>
          obtain rfl := Option.some.inj activatedBefore
          exact reached

/-- Each step goes through the gates. -/
theorem keepsGates_step {next : History} (inv : Inv plant history)
    (taken : step plant history action = some next) : KeepsGates plant history next action := by
  obtain ⟨moves, -⟩ := step_moves taken
  cases moves with
  | schedule held mode stored _ =>
      refine ⟨fun _ _ owned => ?_, fun activatedAt owned => .inr (.inr ?_), fun _ _ _ _ owned => ?_⟩
      · rw [stored.rollout] at owned
        cases owned
      · rw [held.rollout] at owned
        obtain ⟨instant, gate, activated, rfl | rfl⟩ := held.1.owner owned
        · cases mode
        · rw [ReplacesRollback, held.rollout, rollbackAt_of_leaving activated]
          exact Option.some_ne_none instant
      · rw [stored.rollout] at owned
        cases owned
  | plain held unowned stored gateless _ =>
      refine ⟨fun _ _ owned => ?_, fun _ owned => ?_, fun _ _ _ _ owned => ?_⟩
      · rw [stored.rollout, activation_of_gateless gateless] at owned
        cases owned
      · rw [held.rollout, unowned] at owned
        cases owned
      · rw [stored.rollout, activation_of_gateless gateless] at owned
        cases owned
  | leave held owned _ activated stored _ _ =>
      refine ⟨fun _ unowned _ => ?_, fun _ before => .inl ?_, fun _ _ _ gone _ => ?_⟩
      · rw [held.rollout, owned] at unowned
        cases unowned
      · rw [held.rollout, owned] at before
        rw [stored.rollout, ← before]
        exact activation_of_leaving activated
      · rw [stored.rollout, rollbackAt_of_leaving activated] at gone
        cases gone
  | idle config _ =>
      have same : next.tables.rollout = history.tables.rollout := by
        rw [Tables.rollout, Tables.rollout, config]
      refine ⟨fun _ unowned owned => ?_, fun _ owned => .inl ?_, fun _ _ scheduled gone _ => ?_⟩
      · rw [same, unowned] at owned
        cases owned
      · rw [same, owned]
      · rw [same, scheduled] at gone
        cases gone
  | reject held activated stored kept days =>
      refine ⟨fun _ unowned _ => ?_, fun _ owned => .inl ?_, fun boundary _ scheduled _ owned => ?_⟩
      · rw [held.rollout, activation_of_leaving activated] at unowned
        cases unowned
      · rw [held.rollout, activation_of_leaving activated] at owned
        rw [stored.rollout, ← owned]
        exact activation_of_active kept
      · rw [held.rollout, rollbackAt_of_leaving activated] at scheduled
        rw [stored.rollout, activation_of_active kept] at owned
        obtain rfl := Option.some.inj scheduled
        obtain rfl := Option.some.inj owned
        exact inv.restored held activated stored kept days
  | finish held activated due stored days =>
      refine ⟨fun _ _ owned => ?_, fun _ _ => .inr (.inl ?_), fun _ _ _ _ owned => ?_⟩
      · rw [stored.rollout] at owned
        cases owned
      · obtain ⟨saved, last, same, covers⟩ := inv.noted _ _ _ held activated
        refine ⟨_, rfl, stored.rollout, saved, List.mem_of_head? last, ?_, same ▸ due,
          covers.future⟩
        rw [held.rollout, rollbackAt_of_leaving activated, same]
      · rw [stored.rollout] at owned
        cases owned
  | block held pending stored _ =>
      refine ⟨fun _ _ owned => ?_, fun _ owned => ?_, fun _ _ _ _ owned => ?_⟩
      · rw [stored.rollout] at owned
        cases owned
      · rw [held.rollout, activation_of_pending rfl pending] at owned
        cases owned
      · rw [stored.rollout] at owned
        cases owned
  | activate held pending due ready stored given days queue =>
      refine ⟨fun activatedAt _ owned => ?_, fun _ owned => ?_, fun _ _ scheduled _ _ => ?_⟩
      · rw [stored.rollout, activation_of_active given] at owned
        refine ⟨_, _, _, rfl, held.rollout, due, ready, (Option.some.inj owned).symm, ?_, ?_⟩
        · rw [days]
          exact Finset.mem_insert_self _ _
        · rw [queue]
          refine ⟨_, SortedMap.get_set_self _ _ _, rfl, rfl, ?_⟩
          split
          · rfl
          · exact min_le_right _ _
      · rw [held.rollout, activation_of_pending rfl pending] at owned
        cases owned
      · rw [held.rollout, rollbackAt_of_live] at scheduled
        cases scheduled

theorem inv_initial {initial : Tables} (off : initial.Holds .off) : Inv plant ⟨initial, []⟩ :=
  .of_unactivated off fun _ found => nomatch found

theorem inv_of_reachable {initial : Tables} (off : initial.Holds .off)
    (reachable : Reachable ⟨initial, []⟩ (step plant) (fun _ _ => True) history) :
    Inv plant history :=
  reachable.invariant (inv_initial off) fun _ _ _ inv _ taken => inv_step inv taken

/-- In every run from `off`, what is stored can be parsed and each step goes through the gates. -/
theorem rollout_gates (plant : Plant M) {initial : Tables} (off : initial.Holds .off)
    {history : History}
    (reachable : Reachable ⟨initial, []⟩ (step plant) (fun _ _ => True) history) :
    (∀ raw, history.tables.config = some raw → ∃ config, parseConfig raw = .ok config) ∧
      ∀ action next, step plant history action = some next →
        KeepsGates plant history next action := by
  have inv := inv_of_reachable off reachable
  obtain ⟨config, held⟩ := inv.parsed
  exact ⟨fun raw stored => ⟨config, held.parses stored⟩,
    fun action next taken => keepsGates_step inv taken⟩

/-! ## A rejected rollback -/

def uniformPlant : Plant Unit where
  toPlantCalendar := Projection.uniformCalendar
  timeOf moment := moment % 86400000000
  reportDigest _ _ := "digest"
  reportDigest_ne _ _ := by decide

/-- The settings before the rollout. -/
def offTables : Tables where
  config := none
  shadowEpoch := none
  departments := ∅
  strictDays := ∅
  queue := ∅
  blocked := none
  status := none

/-- A reading with a ready report; every shift starts at one hour of the day. -/
def readingAt (now startHour : ℤ) : Reading Unit :=
  let schedule : Schedule :=
    { shiftStart := fun _ => startHour * 3600000000
      isWorkday := fun _ => some true }
  { now := now
    clock := now + 1
    locked := schedule
    shared := schedule
    measures := ()
    blockers := ∅ }

/-- The cutover of the second day is activated a minute late. -/
def lateActivation : List (Action Unit) :=
  let hour : ℤ := 3600000000
  [.save (readingAt 0 7) .shadow none [],
    .schedule (readingAt hour 7) (31 * hour) none,
    .activate (readingAt (31 * hour + 60000000) 7)]

/-- A rollback is scheduled for the fourth day. -/
def scheduledRollback : Action Unit :=
  .save (readingAt (33 * 3600000000) 7) .shadow (some (79 * 3600000000)) []

/-- By then the shifts start an hour later. -/
def rejectedRollback : Action Unit := .activate (readingAt (79 * 3600000000) 8)

theorem rollout_gates_rejectedRollback :
    ∃ leaving next, run (step uniformPlant) ⟨offTables, []⟩
        (lateActivation ++ [scheduledRollback]) = some leaving ∧
      step uniformPlant leaving rejectedRollback = some next ∧
      KeepsGates uniformPlant leaving next rejectedRollback := by
  have off : offTables.Holds .off := ⟨.off, .inr ⟨rfl, rfl⟩⟩
  obtain ⟨leaving, next, ran, taken⟩ : ∃ leaving next, run (step uniformPlant) ⟨offTables, []⟩
      (lateActivation ++ [scheduledRollback]) = some leaving ∧
      step uniformPlant leaving rejectedRollback = some next := ⟨_, _, rfl, rfl⟩
  have reachable := Reachable.initial.run (fun _ _ _ => trivial) ran
  refine ⟨leaving, next, ran, taken, ?_⟩
  exact (rollout_gates uniformPlant off reachable).2 rejectedRollback next taken

/-- The cutover instant after a rejected rollback is not what it was before. -/
theorem rejected_moves_cutover :
    ∃ live leaving rejected, run (step uniformPlant) ⟨offTables, []⟩ lateActivation = some live ∧
      step uniformPlant live scheduledRollback = some leaving ∧
      step uniformPlant leaving rejectedRollback = some rejected ∧
      live.tables.rollout.activation = rejected.tables.rollout.activation ∧
      live.tables.rollout.cutoverAt ≠ rejected.tables.rollout.cutoverAt := by
  refine ⟨_, _, _, rfl, rfl, rfl, rfl, ?_⟩
  decide

end PlantManager.Attendance.Rollout

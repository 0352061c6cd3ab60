import PlantManager.Payroll.GuardHistory

/-! # Runs of the guard keep a sound world

Every job of the guard has a triple and a frame. A run that starts in a calm world ends in one,
wherever it raises or is cut off (`Payroll.runEnabled_calm`), and so do any number of
runs with edits between them (`Payroll.Occurs.calm`).
-/

namespace PlantManager.Payroll

open Checks Transition Job

variable {H : Type} {α : Type}

/-! ## What a run leaves alone -/

/-- What the work on one attempt keeps: the history, and the other attempts. -/
structure Later (attemptId : ℕ) (world later : World H) : Prop where
  history : ∃ new, .began ∉ new ∧ later.history = new ++ world.history
  others : ∀ intent ∈ world.intents, intent.attemptId ≠ attemptId → intent ∈ later.intents

theorem Later.refl (attemptId : ℕ) (world : World H) : Later attemptId world world :=
  ⟨⟨[], List.not_mem_nil, rfl⟩, fun _ member _ => member⟩

variable {attemptId : ℕ} {event : Event H} {world last : World H}
  {attempts : List (CorrectionAttempt H)} {now : ℤ} {attempt : CorrectionAttempt H}
  {intent : Intent H}

theorem Later.trans {one two three : World H} (first : Later attemptId one two)
    (second : Later attemptId two three) : Later attemptId one three := by
  obtain ⟨new, began, same⟩ := first.history
  obtain ⟨more, begun, again⟩ := second.history
  refine ⟨⟨more ++ new, ?_, ?_⟩, fun intent member other =>
    second.others intent (first.others intent member other) other⟩
  · exact fun member => (List.mem_append.mp member).elim begun began
  · rw [again, same, List.append_assoc]

theorem Later.of_event {later : World H} (other : event ≠ .began)
    (history : later.history = event :: world.history)
    (others : ∀ intent ∈ world.intents, intent.attemptId ≠ attemptId → intent ∈ later.intents) :
    Later attemptId world later :=
  ⟨⟨[event], fun member => other (List.mem_singleton.mp member).symm, history⟩, others⟩

theorem moves_note (attemptId : ℕ) (other : event ≠ .began) :
    Moves (Later attemptId) (note event) :=
  fun _ => .of_event other rfl fun _ member _ => member

theorem moves_failed (attemptId : ℕ) (world : World H) :
    Later attemptId world (world.note .failed) :=
  have other : (Event.failed : Event H) ≠ .began := nofun
  .of_event other rfl fun _ member _ => member

variable {service : World H → Except String (α × World H)} {detail : String} {decision : Decision H}
  {past : List (Event H)}

theorem moves_call
    (served : ∀ world value last, service world = .ok (value, last) → Later attemptId world last) :
    Moves (Later attemptId) (call service) := by
  refine Moves.call ?_ ?_ ?_ served
  · exact fun _ _ _ => Later.trans
  · exact fun _ => ⟨⟨[], List.not_mem_nil, rfl⟩, fun _ member _ => member⟩
  · exact moves_failed attemptId

theorem moves_bind {β : Type} {first : Job (World H) α} {next : α → Job (World H) β}
    (head : Moves (Later attemptId) first) (rest : ∀ value, Moves (Later attemptId) (next value)) :
    Moves (Later attemptId) (first >>= next) := by
  refine Moves.bind ?_ head rest
  exact fun _ _ _ => Later.trans

theorem moves_pure (attemptId : ℕ) (value : α) :
    Moves (Later attemptId) (Pure.pure value : Job (World H) α) :=
  Moves.pure (Later.refl attemptId) value

/-- The rows of the attempts that a mark or a removal leaves. -/
theorem intents_map {change : CorrectionAttempt H → CorrectionAttempt H}
    (same : ∀ row, (change row).toIntent = row.toIntent) :
    (attempts.map change).map (·.toIntent) = attempts.map (·.toIntent) := by
  rw [List.map_map]
  exact List.map_congr_left fun row _ => same row

/-! ## Transactions -/

/-- A mark changes the notes of an attempt only. -/
theorem markTransaction_eq_ok [Hours H] {reason : String} {value : Unit}
    (served : markTransaction attemptId reason detail now world = .ok (value, last)) :
    last.odoo = world.odoo ∧ last.intents = world.intents ∧ last.audited = world.audited ∧
      last.history = world.history ∧ last.ids = world.ids := by
  obtain ⟨-, -, done⟩ := (raiseIf_bind_eq_ok.mp served).imp_right raiseIf_bind_eq_ok.mp
  cases done
  refine ⟨rfl, intents_map fun row => ?_, rfl, rfl, rfl⟩
  split <;> rfl

variable [Hours H]

theorem attemptFromRow_eq_ok {row : CorrectionAttempt H} (read : attemptFromRow row = .ok attempt) :
    attempt = row ∧ validateDecision row.decision true = .ok () := by
  obtain ⟨-, -, rest⟩ := (raiseIf_bind_eq_ok.mp read).imp_right raiseIf_bind_eq_ok.mp
  obtain ⟨_, valid, done⟩ := bind_eq_ok.mp rest
  cases done
  exact ⟨rfl, valid⟩

theorem mapM_attemptFromRow {rows : List (CorrectionAttempt H)}
    (read : rows.mapM attemptFromRow = .ok attempts) : attempts = rows := by
  induction rows generalizing attempts with
  | nil =>
      cases read
      rfl
  | cons row rest ih =>
      obtain ⟨attempt, others, first, later, rfl⟩ := mapM_cons_eq_ok.mp read
      rw [(attemptFromRow_eq_ok first).1, ih later]

theorem loadTransaction_eq_ok (served : loadTransaction world = .ok (attempts, last)) :
    last = world ∧ attempts.Perm world.attempts := by
  obtain ⟨rows, read, done⟩ := bind_eq_ok.mp served
  cases done
  rw [mapM_attemptFromRow read]
  exact ⟨rfl, Ranking.sortBy_perm _ _⟩

omit [Hours H] in
theorem findAttempt_of_mem (distinct : (attempts.map fun row => row.attemptId).Nodup)
    {row : CorrectionAttempt H} (member : row ∈ attempts) :
    findAttempt row.attemptId attempts = some row := by
  cases found : findAttempt row.attemptId attempts with
  | none => exact absurd (decide_eq_true rfl) (List.find?_eq_none.mp found row member)
  | some other =>
      have same : other.attemptId = row.attemptId := by simpa using List.find?_some found
      rw [List.inj_on_of_nodup_map distinct (List.mem_of_find?_eq_some found) member same]

omit [Hours H] in
theorem intents_filter (attemptId : ℕ) (attempts : List (CorrectionAttempt H)) :
    (attempts.filter fun row => row.attemptId ≠ attemptId).map (·.toIntent) =
      (attempts.map (·.toIntent)).filter fun other => other.attemptId ≠ attemptId := by
  rw [List.filter_map]
  rfl

/-- What a finalization that committed did to a pending attempt. -/
theorem finalizeTransaction_eq_ok (sound : Sound world) (pending : intent ∈ world.intents)
    {value : Bool}
    (served : finalizeTransaction intent.attemptId detail now world = .ok (value, last)) :
    ∃ attempts corrections, attempts.map (·.toIntent) =
        world.intents.filter (fun other => other.attemptId ≠ intent.attemptId) ∧
      corrections.map (·.toIntent) = world.audited ++ [intent] ∧
      last = { world with attempts, corrections }.note (.finalized intent) := by
  obtain ⟨-, rest⟩ := raiseIf_bind_eq_ok.mp served
  obtain ⟨row, member, rfl⟩ := List.mem_map.mp pending
  have distinct : (world.attempts.map fun row => row.attemptId).Nodup := by
    have nodup := sound.attempts_nodup
    rwa [World.intents, List.map_map] at nodup
  have unaudited :
      (world.corrections.any fun other => other.attemptId = row.attemptId) = false := by
    rw [List.any_eq_false]
    intro other done same
    exact sound.apart row.toIntent pending other.toIntent (List.mem_map_of_mem done)
      (of_decide_eq_true same)
  rw [findAttempt_of_mem distinct member] at rest
  obtain ⟨attempt, read, done⟩ := bind_eq_ok.mp rest
  rw [(attemptFromRow_eq_ok read).1, unaudited] at done
  cases done
  exact ⟨_, _, intents_filter row.attemptId world.attempts, List.map_append, rfl⟩

/-- What saving an attempt under a new id did. -/
theorem createTransaction_eq_ok [DecidableEq H] (sound : Sound world)
    (fresh : ∀ other, .saved other ∈ world.history → other.attemptId ≠ attemptId)
    (served : createTransaction attemptId decision now world = .ok (attempt, last)) :
    attempt = newAttempt attemptId decision now ∧
      validateDecision decision true = .ok () ∧
      (∀ other ∈ world.intents, other.decision.workEntryId ≠ decision.workEntryId) ∧
      last = { world with attempts := world.attempts ++ [attempt] }.note
        (.saved attempt.toIntent) := by
  obtain ⟨_, valid, rest⟩ := bind_eq_ok.mp served
  obtain ⟨attempts, inserted, rest⟩ := bind_eq_ok.mp rest
  have unknown : ∀ row ∈ world.attempts, row.attemptId ≠ attemptId := fun row member =>
    fresh row.toIntent (sound.saved _ (List.mem_map_of_mem member))
  have absent : (world.attempts.any fun row =>
      row.attemptId = (newAttempt attemptId decision now).attemptId) = false :=
    List.any_eq_false.mpr fun row member same => unknown row member (of_decide_eq_true same)
  unfold insertAttempt at inserted
  rw [absent, if_neg Bool.false_ne_true] at inserted
  split at inserted
  · cases inserted
  · rename_i alone
    cases inserted
    have found : findAttempt attemptId (world.attempts ++ [newAttempt attemptId decision now]) =
        some (newAttempt attemptId decision now) := by
      unfold findAttempt
      rw [List.find?_append, List.find?_eq_none.mpr fun row member same =>
        unknown row member (of_decide_eq_true same)]
      simp [newAttempt]
    rw [found] at rest
    obtain ⟨read, same, rest⟩ := bind_eq_ok.mp rest
    obtain ⟨-, done⟩ := raiseIf_bind_eq_ok.mp rest
    cases done
    refine ⟨(attemptFromRow_eq_ok same).1, valid, fun other member equal => ?_, ?_⟩
    · obtain ⟨row, known, rfl⟩ := List.mem_map.mp member
      exact alone (List.any_eq_true.mpr ⟨row, known, decide_eq_true equal⟩)
    · rw [(attemptFromRow_eq_ok same).1]

/-! ## Changes of Odoo -/

omit [Hours H] in
theorem entry_setDuration (odoo : Odoo H) (entryId : ℤ) (duration : H) (now : ℤ) :
    (odoo.setDuration entryId duration now).entry (some entryId) =
      (odoo.entry (some entryId)).map fun row => { row with duration, writeDate := now } := by
  change (odoo.entries.map _).find? _ = (odoo.entries.find? _).map _
  induction odoo.entries with
  | nil => rfl
  | cons row rest ih =>
      by_cases same : row.id = entryId
      · simp [same]
      · simpa [same] using ih

omit [Hours H] in
theorem entry_setDuration_of_ne (odoo : Odoo H) {entryId : ℤ} {other : Option ℤ}
    (apart : other ≠ some entryId) (duration : H) (now : ℤ) :
    (odoo.setDuration entryId duration now).entry other = odoo.entry other := by
  cases other with
  | none => rfl
  | some other =>
      change (odoo.entries.map _).find? _ = odoo.entries.find? _
      induction odoo.entries with
      | nil => rfl
      | cons row rest ih =>
          by_cases same : row.id = other
          · have kept : row.id ≠ entryId := fun equal => apart (congrArg some (same ▸ equal))
            simp [same, same ▸ kept]
          · by_cases changed : row.id = entryId
            · simpa [same, changed, changed ▸ same] using ih
            · simpa [same, changed] using ih

omit [Hours H] in
theorem entry_delete (odoo : Odoo H) (entryId : ℤ) :
    (odoo.delete entryId).entry (some entryId) = none :=
  List.find?_eq_none.mpr fun _ member same =>
    of_decide_eq_true (List.mem_filter.mp member).2 (of_decide_eq_true same)

omit [Hours H] in
theorem entry_delete_of_ne (odoo : Odoo H) {entryId : ℤ} {other : Option ℤ}
    (apart : other ≠ some entryId) : (odoo.delete entryId).entry other = odoo.entry other := by
  cases other with
  | none => rfl
  | some other =>
      change (odoo.entries.filter _).find? _ = odoo.entries.find? _
      induction odoo.entries with
      | nil => rfl
      | cons row rest ih =>
          by_cases same : row.id = entryId
          · have passed : row.id ≠ other := fun equal => apart (congrArg some (equal ▸ same))
            simpa [same, same ▸ passed] using ih
          · by_cases wanted : row.id = other
            · simp [wanted, wanted ▸ same]
            · simpa [same, wanted] using ih

/-- An update of a row that still has its saved duration shows the target. -/
theorem setDuration_correct {odoo : Odoo H} (action : intent.decision.action = some .durationUpdate)
    (before : durationMatches (world.odoo.entry intent.decision.workEntryId) intent.decision
      (some intent.decision.beforeDuration))
    (changed : setDurationChange intent now world = .ok odoo) :
    (∀ entryId, entryId ≠ intent.decision.workEntryId →
      odoo.entry entryId = world.odoo.entry entryId) ∧
    TargetRead intent.decision (odoo.entry intent.decision.workEntryId) := by
  unfold setDurationChange at changed
  split at changed
  case h_2 => cases changed
  case h_1 entryId duration named after =>
  split at changed
  · cases changed
  · rename_i sensible
    cases changed
    rw [named] at before ⊢
    refine ⟨fun other apart => entry_setDuration_of_ne _ apart _ _, .inl ⟨action, ?_⟩⟩
    rw [entry_setDuration, after]
    cases found : world.odoo.entry (some entryId) with
    | none =>
        rw [found] at before
        cases before
    | some row =>
        rw [found] at before
        obtain ⟨identity, -⟩ := (Bool.and_eq_true _ _).mp before
        refine (Bool.and_eq_true _ _).mpr ⟨identity, Hours.le_self duration ?_⟩
        simp only [Bool.or_eq_true, Bool.not_eq_eq_eq_not, Bool.not_true, not_or,
          Bool.not_eq_false] at sensible
        exact sensible.1

theorem delete_correct {odoo : Odoo H} (action : intent.decision.action = some .deleteZeroRegular)
    (changed : deleteChange intent world = .ok odoo) :
    (∀ entryId, entryId ≠ intent.decision.workEntryId →
      odoo.entry entryId = world.odoo.entry entryId) ∧
    TargetRead intent.decision (odoo.entry intent.decision.workEntryId) := by
  unfold deleteChange at changed
  split at changed
  case h_2 => cases changed
  case h_1 entryId named =>
  cases changed
  rw [named]
  exact ⟨fun other apart => entry_delete_of_ne _ apart, .inr ⟨action, entry_delete _ _⟩⟩

/-! ## Triples -/

theorem quiet_cons (unread : ∀ intent row, event ≠ .read intent row)
    (settled : ∀ intent, event ≠ .finalizing intent) : Quiet (event :: past) :=
  ⟨fun intent row same => absurd (Option.some.inj same) (unread intent row),
    fun intent same => settled intent (Option.some.inj same)⟩

theorem Calm.failed (calm : Calm world) : Calm (world.note .failed) :=
  have sound : Sound (world.note .failed) := calm.1.note trivial trivial (calm.2.due _)
  ⟨sound, quiet_cons (fun _ _ same => by cases same) fun _ same => by cases same⟩

theorem Calm.of_same {other : World H} (calm : Calm world) (odoo : other.odoo = world.odoo)
    (intents : other.intents = world.intents) (audited : other.audited = world.audited)
    (history : other.history = world.history) (ids : world.ids ≤ other.ids) : Calm other :=
  ⟨calm.1.of_same odoo intents audited history ids, history ▸ calm.2⟩

theorem calm_call (after : α → World H → Prop)
    (served : ∀ world, Calm world → ∀ value last, service world = .ok (value, last) →
      Calm last ∧ after value last) :
    Ensures Calm (call service) (fun value world => Calm world ∧ after value world) Calm :=
  Ensures.call (fun _ calm => calm.of_same rfl rfl rfl rfl le_rfl)
    (fun world calm value last done => served world calm value last done)
    (fun _ calm value last done => (served _ calm.failed value last done).1)
    fun _ calm => calm.failed

theorem markAttemptIssue_calm (attemptId : ℕ) (reason detail : String) (now : ℤ) :
    Ensures Calm (markAttemptIssue (H := H) attemptId reason detail now) (fun _ => Calm) Calm := by
  refine (calm_call (fun _ _ => True) fun world calm value last served => ?_).weaken
    (fun _ => id) (fun _ _ holds => holds.1) fun _ => id
  obtain ⟨odoo, intents, audited, history, ids⟩ := markTransaction_eq_ok served
  exact ⟨calm.of_same odoo intents audited history ids.ge, trivial⟩

theorem markPending_calm (attempt : CorrectionAttempt H) (reason detail : String) (now : ℤ) :
    Ensures Calm (markPending attempt reason detail now) (fun _ => Calm) Calm := by
  refine Ensures.bind (fun _ => Calm) ?_ fun _ => Ensures.pure fun _ => id
  exact (markAttemptIssue_calm attempt.attemptId reason detail now).tried (fun _ _ => id)
    (fun _ => id) fun _ => id

theorem leavePending_calm (attempt : CorrectionAttempt H) (reason detail : String) (now : ℤ) :
    Ensures Calm (leavePending attempt reason detail now) (fun _ => Calm) Calm :=
  Ensures.bind _ (markPending_calm attempt reason detail now) fun _ => Ensures.pure fun _ => id

/-- A calm world in which the attempt is pending. -/
def Pending (intent : Intent H) (world : World H) : Prop := Calm world ∧ intent ∈ world.intents

/-- A world in which the last thing that was done was to read the entry of a pending attempt. -/
structure Fetched (intent : Intent H) (row : Option (WorkRow H)) (world : World H) : Prop where
  sound : Sound world
  pending : intent ∈ world.intents
  last : world.history.head? = some (.read intent row)
  row_eq : row = world.odoo.entry intent.decision.workEntryId

theorem Fetched.quiet {row : Option (WorkRow H)} (fetched : Fetched intent row world)
    (missed : ¬ TargetRead intent.decision row) : Quiet world.history := by
  constructor
  · intro other seen same
    rw [fetched.last] at same
    cases same
    exact missed
  · intro other same
    rw [fetched.last] at same
    cases same

theorem fetchPayrollWorkEntry_fetched (intent : Intent H) :
    Ensures (Pending intent) (fetchPayrollWorkEntry intent) (Fetched intent) Calm := by
  refine Ensures.bind (fun row world => Pending intent world ∧
    row = world.odoo.entry intent.decision.workEntryId) ?_ fun row => ?_
  · refine Ensures.call (fun _ holds => ⟨holds.1.of_same rfl rfl rfl rfl le_rfl, holds.2⟩) ?_ ?_
      fun _ holds => holds.1.failed
    · intro world holds value last served
      split at served
      · cases served
      · rename_i entryId named
        cases served
        exact ⟨holds, by rw [named]; rfl⟩
    · intro world holds value last served
      split at served
      · cases served
      · cases served
        exact holds.1.failed
  · refine Ensures.bind (fun _ => Fetched intent row) ?_ fun _ => Ensures.pure fun _ => id
    rintro world ⟨⟨calm, pending⟩, same⟩
    exact ⟨calm.1.note trivial trivial (calm.2.due _), pending, rfl, same⟩

/-- A world in which the finalization of a pending attempt was just asked for. -/
structure Finalizing (intent : Intent H) (world : World H) : Prop where
  sound : Sound world
  pending : intent ∈ world.intents
  last : world.history.head? = some (.finalizing intent)

theorem Finalizing.failed (finalizing : Finalizing intent world) : Sound (world.note .failed) := by
  refine finalizing.sound.note trivial trivial ⟨fun other row same => ?_, fun _ _ => .inr rfl⟩
  rw [finalizing.last] at same
  cases same

omit [Hours H] in
theorem justAfter_of_head (last : past.head? = some event) : JustAfter event past := by
  obtain ⟨earlier, rfl⟩ := List.head?_eq_some_iff.mp last
  exact ⟨earlier, .inl rfl⟩

omit [Hours H] in
theorem justAfter_failed (last : past.head? = some event) : JustAfter event (.failed :: past) := by
  obtain ⟨earlier, rfl⟩ := List.head?_eq_some_iff.mp last
  exact ⟨earlier, .inr rfl⟩

theorem finalizeTransaction_calm (sound : Sound world) (pending : intent ∈ world.intents)
    (asked : JustAfter (.finalizing intent) world.history) {value : Bool}
    (served : finalizeTransaction intent.attemptId detail now world = .ok (value, last)) :
    Calm last := by
  obtain ⟨attempts, corrections, intents, audited, rfl⟩ :=
    finalizeTransaction_eq_ok sound pending served
  exact ⟨sound.finalize pending asked intents audited,
    quiet_cons (fun _ _ same => by cases same) fun _ same => by cases same⟩

theorem finalizeAttempt_calm (intent : Intent H) (row : Option (WorkRow H)) (detail : String)
    (now : ℤ) :
    Ensures (fun world => Fetched intent row world ∧ TargetRead intent.decision row)
      (finalizeAttempt intent detail now) (fun _ => Calm) Calm := by
  refine Ensures.bind (fun _ => Finalizing intent) ?_ fun _ => ?_
  · rintro world ⟨fetched, target⟩
    refine ⟨fetched.sound.note trivial ⟨row, fetched.last, target⟩ ⟨?_, ?_⟩, fetched.pending, rfl⟩
    · intro other seen same _
      rw [fetched.last] at same
      cases same
      rfl
    · intro other same
      rw [fetched.last] at same
      cases same
  · refine Ensures.call ?_ ?_ ?_ ?_
    · exact fun _ asked => ⟨asked.sound.of_same rfl rfl rfl rfl le_rfl, asked.pending, asked.last⟩
    · exact fun world asked value last served =>
        finalizeTransaction_calm asked.sound asked.pending (justAfter_of_head asked.last) served
    · exact fun world asked value last served =>
        finalizeTransaction_calm asked.failed asked.pending (justAfter_failed asked.last) served
    · exact fun world asked => ⟨asked.failed,
        quiet_cons (fun _ _ same => by cases same) fun _ same => by cases same⟩

theorem finalizeVerified_calm (attempt : CorrectionAttempt H) (row : Option (WorkRow H))
    (detail : String) (now : ℤ) (mutatedThisRun : Bool) :
    Ensures (fun world => Fetched attempt.toIntent row world ∧ TargetRead attempt.decision row)
      (finalizeVerified attempt detail now mutatedThisRun) (fun _ => Calm) Calm := by
  refine Ensures.bind (fun _ => Calm) ?_ fun done => ?_
  · exact (finalizeAttempt_calm attempt.toIntent row detail now).tried (fun _ _ => id)
      (fun _ => id) fun _ => id
  · cases done with
    | some _ => exact Ensures.pure fun _ => id
    | none =>
        exact Ensures.bind _ (markPending_calm attempt _ _ now) fun _ => Ensures.pure fun _ => id

/-- A world in which the change of a pending attempt was just sent, to a row that still had its
saved duration. -/
structure Sent (intent : Intent H) (row : Option (WorkRow H)) (world : World H) : Prop where
  sound : Sound world
  pending : intent ∈ world.intents
  last : world.history.head? = some (.sent intent row)
  row_eq : row = world.odoo.entry intent.decision.workEntryId
  original : durationMatches row intent.decision (some intent.decision.beforeDuration)
  missed : ¬ TargetRead intent.decision row

theorem Fetched.send {row : Option (WorkRow H)} (fetched : Fetched intent row world)
    (original : durationMatches row intent.decision (some intent.decision.beforeDuration))
    (missed : ¬ TargetRead intent.decision row) :
    Sent intent row
      (world.note (.sent intent (world.odoo.entry intent.decision.workEntryId))) := by
  rw [← fetched.row_eq]
  refine ⟨fetched.sound.note trivial ⟨fetched.last, original, ?_, ?_⟩
    ((fetched.quiet missed).due _), fetched.pending, rfl, fetched.row_eq, original, missed⟩
  · exact fetched.sound.saved intent fetched.pending
  · by_cases recent : .saved intent ∈ thisRun world.history
    · exact .inl (fetched.sound.lawful.corrects recent)
    · exact .inr recent

theorem mutate_pending (intent : Intent H) (row : Option (WorkRow H))
    {change : World H → Except String (Odoo H)}
    (correct : ∀ world odoo, change world = .ok odoo →
      durationMatches (world.odoo.entry intent.decision.workEntryId) intent.decision
        (some intent.decision.beforeDuration) →
      (∀ entryId, entryId ≠ intent.decision.workEntryId →
        odoo.entry entryId = world.odoo.entry entryId) ∧
      TargetRead intent.decision (odoo.entry intent.decision.workEntryId)) :
    Ensures (fun world => Fetched intent row world ∧
        durationMatches row intent.decision (some intent.decision.beforeDuration) ∧
        ¬ TargetRead intent.decision row)
      (mutate intent change) (fun _ => Pending intent) (Pending intent) := by
  have took : ∀ {world last : World H} {value : Unit}, Sound world → intent ∈ world.intents →
      JustAfter (.sent intent row) world.history →
      row = world.odoo.entry intent.decision.workEntryId →
      durationMatches row intent.decision (some intent.decision.beforeDuration) →
      ¬ TargetRead intent.decision row →
      ((change world).map fun odoo =>
        ((), { world with odoo }.note (.tookEffect intent))) = .ok (value, last) →
      Pending intent last := by
    intro world last value sound pending asked same original missed served
    cases changed : change world with
    | error _ =>
        rw [changed] at served
        cases served
    | ok odoo =>
        rw [changed] at served
        cases served
        rw [same] at original missed
        obtain ⟨others, target⟩ := correct world odoo changed original
        refine ⟨⟨sound.mutate pending asked (fun stands => ?_) others target, ?_⟩, pending⟩
        · exact missed (sound.standing intent pending stands)
        · exact quiet_cons (fun _ _ same => by cases same) fun _ same => by cases same
  refine Ensures.bind (fun _ => Sent intent row) ?_ fun _ => ?_
  · exact fun world holds => holds.1.send holds.2.1 holds.2.2
  · have quiet : ∀ {world : World H}, Sent intent row world → Quiet world.history :=
      fun sent => (justAfter_of_head sent.last).quiet_of_sent
    have failed : ∀ {world : World H}, Sent intent row world → Sound (world.note .failed) :=
      fun sent => sent.sound.note trivial trivial ((quiet sent).due _)
    refine Ensures.call ?_ ?_ ?_ ?_
    · exact fun _ sent => { sent with sound := sent.sound.of_same rfl rfl rfl rfl le_rfl }
    · exact fun world sent value last served => took sent.sound sent.pending
        (justAfter_of_head sent.last) sent.row_eq sent.original sent.missed served
    · exact fun world sent value last served => took (failed sent) sent.pending
        (justAfter_failed sent.last) sent.row_eq sent.original sent.missed served
    · exact fun world sent => ⟨⟨failed sent,
        quiet_cons (fun _ _ same => by cases same) fun _ same => by cases same⟩, sent.pending⟩

theorem sendChange_pending (attempt : CorrectionAttempt H) (row : Option (WorkRow H)) (now : ℤ) :
    Ensures (fun world => Fetched attempt.toIntent row world ∧
        durationMatches row attempt.decision (some attempt.decision.beforeDuration) ∧
        ¬ TargetRead attempt.decision row)
      (sendChange attempt now) (fun _ => Pending attempt.toIntent) (Pending attempt.toIntent) := by
  unfold sendChange
  split
  case h_1 action =>
    exact mutate_pending attempt.toIntent row fun world odoo changed original =>
      setDuration_correct action original changed
  case h_2 action =>
    exact mutate_pending attempt.toIntent row fun world odoo changed _ =>
      delete_correct action changed
  case h_3 => exact fun world holds => ⟨⟨holds.1.sound, holds.1.quiet holds.2.2⟩, holds.1.pending⟩

theorem reviewMutation_calm (attempt : CorrectionAttempt H) (verified : Option (WorkRow H))
    (mutationFailed : Bool) (now : ℤ) :
    Ensures Calm (reviewMutation attempt verified mutationFailed now) (fun _ => Calm) Calm := by
  unfold reviewMutation
  split
  · split <;> exact leavePending_calm attempt _ _ now
  · exact leavePending_calm attempt _ _ now

/-- The action of a pending attempt is one of the two. -/
theorem Sound.action (sound : Sound world) (pending : intent ∈ world.intents)
    (other : intent.decision.action ≠ some .durationUpdate) :
    intent.decision.action = some .deleteZeroRegular := by
  have valid := sound.valid intent pending
  unfold validateDecision at valid
  simp only [raiseIf_bind_eq_ok] at valid
  obtain ⟨-, -, -, -, -, -, named, -⟩ := valid
  rcases chosen : intent.decision.action with _ | _ | _
  · exact absurd chosen named
  · exact absurd chosen other
  · rfl

theorem readAfterMutation_calm (attempt : CorrectionAttempt H) (mutationFailed : Bool) (now : ℤ) :
    Ensures (Pending attempt.toIntent) (readAfterMutation attempt mutationFailed now)
      (fun _ => Calm) Calm := by
  refine Ensures.bind (fun read world => match read with
    | some row => Fetched attempt.toIntent row world
    | none => Calm world) ?_ fun read => ?_
  · exact (fetchPayrollWorkEntry_fetched attempt.toIntent).tried (fun _ _ => id) (fun _ => id)
      fun _ => id
  · cases read with
    | none => exact leavePending_calm attempt _ _ now
    | some row =>
        have review : ¬ TargetRead attempt.decision row →
            Ensures (Fetched attempt.toIntent row)
              (reviewMutation attempt row mutationFailed now) (fun _ => Calm) Calm := fun missed =>
          (reviewMutation_calm attempt row mutationFailed now).weaken
            (fun world fetched => ⟨fetched.sound, fetched.quiet missed⟩) (fun _ _ => id) fun _ => id
        have finalize : ∀ detail, (∀ world, Fetched attempt.toIntent row world →
            TargetRead attempt.decision row) → Ensures (Fetched attempt.toIntent row)
              (finalizeVerified attempt detail now true) (fun _ => Calm) Calm :=
          fun detail target => (finalizeVerified_calm attempt row detail now true).weaken
            (fun world fetched => ⟨fetched, target world fetched⟩) (fun _ _ => id) fun _ => id
        dsimp only
        by_cases update : attempt.decision.action = some .durationUpdate
        · rw [if_pos update]
          by_cases shown : durationMatches row attempt.decision attempt.decision.afterDuration
          · rw [if_pos shown]
            exact finalize _ fun _ _ => .inl ⟨update, shown⟩
          · rw [if_neg shown]
            refine review fun target => target.elim (fun shows => shown shows.2) fun gone => ?_
            rw [update] at gone
            cases gone.1
        · rw [if_neg update]
          by_cases absent : row.isNone
          · rw [if_pos absent]
            exact finalize _ fun world fetched => .inr
              ⟨fetched.sound.action fetched.pending update, Option.isNone_iff_eq_none.mp absent⟩
          · rw [if_neg absent]
            exact review fun target => target.elim (fun shows => update shows.1) fun gone =>
              absent (Option.isNone_iff_eq_none.mpr gone.2)

theorem reconcileAttempt_calm (attempt : CorrectionAttempt H) (now : ℤ) :
    Ensures (Pending attempt.toIntent) (reconcileAttempt attempt now) (fun _ => Calm) Calm := by
  refine Ensures.bind (fun read world => match read with
    | some row => Fetched attempt.toIntent row world
    | none => Calm world) ?_ fun read => ?_
  · exact (fetchPayrollWorkEntry_fetched attempt.toIntent).tried (fun _ _ => id) (fun _ => id)
      fun _ => id
  · cases read with
    | none => exact leavePending_calm attempt _ _ now
    | some row =>
        dsimp only
        split
        · rename_i target
          exact (finalizeVerified_calm attempt row _ now false).weaken
            (fun world fetched => ⟨fetched, .inl target⟩) (fun _ _ => id) fun _ => id
        · rename_i unshown
          split
          · rename_i target
            exact (finalizeVerified_calm attempt row _ now false).weaken
              (fun world fetched => ⟨fetched, .inr target⟩) (fun _ _ => id) fun _ => id
          · rename_i present
            have missed : ¬ TargetRead attempt.decision row := fun target =>
              target.elim unshown present
            split
            · exact (leavePending_calm attempt _ _ now).weaken
                (fun world fetched => ⟨fetched.sound, fetched.quiet missed⟩) (fun _ _ => id)
                fun _ => id
            · rename_i original
              refine Ensures.bind (fun _ => Pending attempt.toIntent) ?_ fun sent =>
                readAfterMutation_calm attempt sent.isNone now
              refine Ensures.tried ((sendChange_pending attempt row now).weaken
                (fun world fetched => ⟨fetched, not_not.mp original, missed⟩) (fun _ _ => id)
                fun _ => id) (fun _ _ => id) (fun _ => id) fun _ pending => pending.1

theorem reconcilePending_calm (attempt : CorrectionAttempt H) (now : ℤ) :
    Ensures (Pending attempt.toIntent) (reconcilePending attempt now) (fun _ => Calm) Calm := by
  refine Ensures.bind (fun _ => Calm) ?_ fun outcome => ?_
  · exact (reconcileAttempt_calm attempt now).tried (fun _ _ => id) (fun _ => id) fun _ => id
  · cases outcome with
    | some outcome => exact Ensures.pure fun _ => id
    | none => exact leavePending_calm attempt _ _ now

/-! ## Frames -/

theorem moves_mark (attemptId other : ℕ) (reason detail : String) (now : ℤ) :
    Moves (Later attemptId) (markAttemptIssue (H := H) other reason detail now) := by
  refine moves_call fun world value last served => ?_
  obtain ⟨-, intents, -, history, -⟩ := markTransaction_eq_ok served
  exact ⟨⟨[], List.not_mem_nil, history⟩, fun intent member _ => intents ▸ member⟩

theorem moves_markPending (attemptId : ℕ) (attempt : CorrectionAttempt H)
    (reason detail : String) (now : ℤ) :
    Moves (Later attemptId) (markPending attempt reason detail now) :=
  moves_bind (moves_mark attemptId _ reason detail now).tried fun _ => moves_pure attemptId _

theorem moves_leavePending (attemptId : ℕ) (attempt : CorrectionAttempt H)
    (reason detail : String) (now : ℤ) :
    Moves (Later attemptId) (leavePending attempt reason detail now) :=
  moves_bind (moves_markPending attemptId attempt reason detail now) fun _ => moves_pure attemptId _

theorem moves_finalizeAttempt (intent : Intent H) (detail : String) (now : ℤ) :
    Moves (Later intent.attemptId) (finalizeAttempt intent detail now) := by
  refine moves_bind (moves_note _ nofun) fun _ => moves_call fun world value last served => ?_
  obtain ⟨-, rest⟩ := raiseIf_bind_eq_ok.mp served
  split at rest
  · cases rest
    exact .refl _ world
  · obtain ⟨attempt, -, done⟩ := bind_eq_ok.mp rest
    cases done
    have other : (Event.finalized attempt.toIntent : Event H) ≠ .began := nofun
    refine .of_event other rfl fun intent member apart => ?_
    change intent ∈ (world.attempts.filter _).map _
    rw [intents_filter]
    exact List.mem_filter.mpr ⟨member, decide_eq_true apart⟩

theorem moves_finalizeVerified (attempt : CorrectionAttempt H) (detail : String) (now : ℤ)
    (mutatedThisRun : Bool) :
    Moves (Later attempt.attemptId) (finalizeVerified attempt detail now mutatedThisRun) := by
  refine moves_bind (moves_finalizeAttempt attempt.toIntent detail now).tried fun done => ?_
  cases done with
  | some _ => exact moves_pure _ _
  | none => exact moves_bind (moves_markPending _ attempt _ _ now) fun _ => moves_pure _ _

omit [Hours H] in
theorem moves_fetchPayrollWorkEntry (attemptId : ℕ) (intent : Intent H) :
    Moves (Later attemptId) (fetchPayrollWorkEntry intent) := by
  refine moves_bind (moves_call fun world value last served => ?_) fun row =>
    moves_bind (moves_note attemptId nofun) fun _ => moves_pure attemptId _
  split at served
  · cases served
  · cases served
    exact .refl attemptId world

omit [Hours H] in
theorem moves_mutate (attemptId : ℕ) (intent : Intent H)
    (change : World H → Except String (Odoo H)) :
    Moves (Later attemptId) (mutate intent change) := by
  refine moves_bind (fun world => ?_) fun _ => moves_call fun world value last served => ?_
  · have other : (Event.sent intent (world.odoo.entry intent.decision.workEntryId) : Event H) ≠
        .began := nofun
    exact .of_event other rfl fun _ member _ => member
  · cases changed : change world with
    | error _ =>
        rw [changed] at served
        cases served
    | ok odoo =>
        rw [changed] at served
        cases served
        have other : (Event.tookEffect intent : Event H) ≠ .began := nofun
        exact .of_event other rfl fun _ member _ => member

theorem moves_sendChange (attemptId : ℕ) (attempt : CorrectionAttempt H) (now : ℤ) :
    Moves (Later attemptId) (sendChange attempt now) := by
  unfold sendChange
  split
  · exact moves_mutate attemptId _ _
  · exact moves_mutate attemptId _ _
  · exact Later.refl attemptId

theorem moves_reviewMutation (attemptId : ℕ) (attempt : CorrectionAttempt H)
    (verified : Option (WorkRow H)) (mutationFailed : Bool) (now : ℤ) :
    Moves (Later attemptId) (reviewMutation attempt verified mutationFailed now) := by
  unfold reviewMutation
  split
  · split <;> exact moves_leavePending attemptId attempt _ _ now
  · exact moves_leavePending attemptId attempt _ _ now

theorem moves_readAfterMutation (attempt : CorrectionAttempt H) (mutationFailed : Bool) (now : ℤ) :
    Moves (Later attempt.attemptId) (readAfterMutation attempt mutationFailed now) := by
  refine moves_bind (moves_fetchPayrollWorkEntry _ attempt.toIntent).tried fun read => ?_
  cases read with
  | none => exact moves_leavePending _ attempt _ _ now
  | some row =>
      dsimp only
      split
      · split
        · exact moves_finalizeVerified attempt _ now true
        · exact moves_reviewMutation _ attempt row mutationFailed now
      · split
        · exact moves_finalizeVerified attempt _ now true
        · exact moves_reviewMutation _ attempt row mutationFailed now

theorem moves_reconcileAttempt (attempt : CorrectionAttempt H) (now : ℤ) :
    Moves (Later attempt.attemptId) (reconcileAttempt attempt now) := by
  refine moves_bind (moves_fetchPayrollWorkEntry _ attempt.toIntent).tried fun read => ?_
  cases read with
  | none => exact moves_leavePending _ attempt _ _ now
  | some row =>
      dsimp only
      split
      · exact moves_finalizeVerified attempt _ now false
      · split
        · exact moves_finalizeVerified attempt _ now false
        · split
          · exact moves_leavePending _ attempt _ _ now
          · exact moves_bind (moves_sendChange _ attempt now).tried fun sent =>
              moves_readAfterMutation attempt sent.isNone now

theorem moves_reconcilePending (attempt : CorrectionAttempt H) (now : ℤ) :
    Moves (Later attempt.attemptId) (reconcilePending attempt now) := by
  refine moves_bind (moves_reconcileAttempt attempt now).tried fun outcome => ?_
  cases outcome with
  | some outcome => exact moves_pure _ _
  | none => exact moves_leavePending _ attempt _ _ now

theorem moves_createAttempt [DecidableEq H] (attemptId : ℕ) (decision : Decision H) (now : ℤ) :
    Moves (Later attemptId) (createAttempt attemptId decision now) := by
  refine moves_call fun world value last served => ?_
  obtain ⟨_, -, rest⟩ := bind_eq_ok.mp served
  obtain ⟨attempts, inserted, rest⟩ := bind_eq_ok.mp rest
  split at rest
  · cases rest
  · obtain ⟨attempt, -, rest⟩ := bind_eq_ok.mp rest
    obtain ⟨-, done⟩ := raiseIf_bind_eq_ok.mp rest
    cases done
    have other : (Event.saved value.toIntent : Event H) ≠ .began := nofun
    refine .of_event other rfl fun intent member _ => ?_
    unfold insertAttempt at inserted
    split at inserted
    · cases inserted
      exact member
    · split at inserted
      · cases inserted
      · cases inserted
        change intent ∈ (world.attempts ++ _).map _
        rw [List.map_append]
        exact List.mem_append_left _ member

theorem Later.corrects {later : World H} (moved : Later attemptId world later)
    (corrects : Corrects (thisRun world.history) decision) :
    Corrects (thisRun later.history) decision := by
  obtain ⟨new, others, same⟩ := moved.history
  rw [same, thisRun_append others]
  exact corrects.mono fun event => List.mem_append_right _

/-! ## A run -/

theorem reconcileAttempts_calm (now : ℤ) (attempts : List (CorrectionAttempt H)) (tally : Tally H)
    (distinct : (attempts.map fun attempt => attempt.attemptId).Nodup) :
    Ensures (fun world => Calm world ∧ ∀ attempt ∈ attempts, attempt.toIntent ∈ world.intents)
      (reconcileAttempts now attempts tally) (fun _ => Calm) Calm := by
  induction attempts generalizing tally with
  | nil => exact fun world holds => holds.1
  | cons attempt rest ih =>
      obtain ⟨apart, others⟩ := List.nodup_cons.mp distinct
      have kept := (reconcilePending_calm attempt now).keeping (moves_reconcilePending attempt now)
        (fun world => ∀ other ∈ rest, other.toIntent ∈ world.intents)
        fun pending moved other member => moved.others _ (pending other member) fun same =>
          apart (List.mem_map.mpr ⟨other, member, same⟩)
      refine Ensures.bind _ (kept.weaken (fun world holds => ?_) (fun _ _ => id) fun _ => And.left)
        fun outcome => ih _ others
      exact ⟨⟨holds.1, holds.2 _ List.mem_cons_self⟩, fun other member =>
        holds.2 other (List.mem_cons_of_mem _ member)⟩

theorem loadPendingAttempts_calm :
    Ensures Calm (loadPendingAttempts (H := H))
      (fun attempts world => Calm world ∧
        (∀ attempt ∈ attempts, attempt.toIntent ∈ world.intents) ∧
        (attempts.map fun attempt => attempt.attemptId).Nodup) Calm := by
  refine calm_call _ fun world calm attempts last served => ?_
  obtain ⟨rfl, same⟩ := loadTransaction_eq_ok served
  have distinct := calm.1.attempts_nodup
  rw [World.intents, List.map_map] at distinct
  exact ⟨calm, fun attempt member => List.mem_map_of_mem (same.mem_iff.mp member),
    (same.map _).nodup_iff.mpr distinct⟩

/-- An id was drawn that no attempt was saved under. -/
def Drawn (attemptId : ℕ) (world : World H) : Prop :=
  Calm world ∧ attemptId < world.ids ∧
    ∀ other, .saved other ∈ world.history → other.attemptId ≠ attemptId

theorem uuid4_drawn : Ensures Calm (uuid4 (H := H)) Drawn Calm := fun world calm =>
  ⟨calm.of_same rfl rfl rfl rfl world.ids.le_succ, world.ids.lt_succ_self,
    fun other saved => (calm.1.drawn other saved).ne⟩

theorem createTransaction_pending [DecidableEq H] (drawn : Drawn attemptId world)
    (corrects : Corrects (thisRun world.history) decision)
    (served : createTransaction attemptId decision now world = .ok (attempt, last)) :
    Pending attempt.toIntent last := by
  obtain ⟨calm, old, fresh⟩ := drawn
  obtain ⟨rfl, valid, alone, rfl⟩ := createTransaction_eq_ok calm.1 fresh served
  have intents : (world.attempts ++ [newAttempt attemptId decision now]).map (·.toIntent) =
      world.intents ++ [(newAttempt attemptId decision now).toIntent] := List.map_append
  refine ⟨⟨calm.1.save calm.2 intents corrects old fresh alone valid, ?_⟩, ?_⟩
  · exact quiet_cons (fun _ _ same => by cases same) fun _ same => by cases same
  · change _ ∈ (world.attempts ++ _).map _
    rw [intents]
    exact List.mem_concat_self

theorem createAttempt_pending [DecidableEq H] (attemptId : ℕ) (decision : Decision H) (now : ℤ) :
    Ensures (fun world => Drawn attemptId world ∧ Corrects (thisRun world.history) decision)
      (createAttempt attemptId decision now) (fun attempt => Pending attempt.toIntent) Calm := by
  refine Ensures.call ?_ ?_ ?_ fun world holds => holds.1.1.failed
  · exact fun world holds =>
      ⟨⟨holds.1.1.of_same rfl rfl rfl rfl le_rfl, holds.1.2⟩, holds.2⟩
  · exact fun world holds attempt last served =>
      createTransaction_pending holds.1 holds.2 served
  · rintro world ⟨⟨calm, old, fresh⟩, corrects⟩ attempt last served
    refine (createTransaction_pending ⟨calm.failed, old, fun other saved => ?_⟩ ?_ served).1
    · exact fresh other ((List.mem_cons.mp saved).resolve_left nofun)
    · exact corrects.mono fun event member => List.mem_cons_of_mem _ member

theorem correctDays_calm [DecidableEq H] (now : ℤ) (decisions : List (Decision H))
    (tally : Tally H) :
    Ensures (fun world => Calm world ∧
        ∀ decision ∈ decisions, Corrects (thisRun world.history) decision)
      (correctDays now decisions tally) (fun _ => Calm) Calm := by
  induction decisions generalizing tally with
  | nil => exact fun world holds => holds.1
  | cons decision rest ih =>
      have later : ∀ {world : World H}, (∀ other ∈ decision :: rest,
          Corrects (thisRun world.history) other) →
          ∀ other ∈ rest, Corrects (thisRun world.history) other :=
        fun holds other member => holds other (List.mem_cons_of_mem _ member)
      change Ensures _ (if decision.workEntryId ∈ tally.pendingEntryIds then _ else _) _ _
      split
      · exact (ih tally).weaken (fun world holds => ⟨holds.1, later holds.2⟩) (fun _ _ => id)
          fun _ => id
      · refine Ensures.bind (fun attemptId world => (Drawn attemptId world ∧
          Corrects (thisRun world.history) decision) ∧
            ∀ other ∈ rest, Corrects (thisRun world.history) other) ?_ fun attemptId => ?_
        · exact fun world holds => ⟨⟨uuid4_drawn world holds.1,
            holds.2 _ List.mem_cons_self⟩, later holds.2⟩
        · have created := (createAttempt_pending attemptId decision now).keeping
            (moves_createAttempt attemptId decision now)
            (fun world => ∀ other ∈ rest, Corrects (thisRun world.history) other)
            fun read moved other member => moved.corrects (read other member)
          refine Ensures.bind (fun made world => (match made with
            | some attempt => Pending attempt.toIntent world
            | none => Calm world) ∧ ∀ other ∈ rest, Corrects (thisRun world.history) other) ?_
            fun made => ?_
          · exact created.tried (fun _ _ => id) (fun _ => id) fun _ => And.left
          · cases made with
            | none => exact ih _
            | some attempt =>
                have reconciled := (reconcileAttempt_calm attempt now).keeping
                  (moves_reconcileAttempt attempt now)
                  (fun world => ∀ other ∈ rest, Corrects (thisRun world.history) other)
                  fun read moved other member => moved.corrects (read other member)
                exact Ensures.bind _ (reconciled.weaken (fun _ => id) (fun _ _ => id)
                  fun _ => And.left) fun outcome => ih _

theorem dayDecision_key (workRows : List (WorkRow H)) (attendanceRows : List (AttendanceRow H))
    (employeeId : ℤ) (employeeName : String) (workDate : ℤ) :
    (dayDecision workRows attendanceRows employeeId employeeName workDate).employeeId = employeeId ∧
      (dayDecision workRows attendanceRows employeeId employeeName workDate).employeeName =
        employeeName ∧
      (dayDecision workRows attendanceRows employeeId employeeName workDate).workDate =
        workDate := by
  unfold dayDecision classifyDay
  dsimp only
  split
  · exact ⟨rfl, rfl, rfl⟩
  · split_ifs <;> exact ⟨rfl, rfl, rfl⟩

theorem classifyCandidates_calm (candidates : List (WorkRow H)) :
    Ensures Calm (classifyCandidates candidates)
      (fun decisions world => Calm world ∧ ∀ decision ∈ decisions, decision.kind = .correct →
        Corrects (thisRun world.history) decision) Calm := by
  refine Ensures.bind (fun inputs world => Calm world ∧
    .fetched inputs.1 inputs.2 ∈ thisRun world.history) ?_ fun inputs => ?_
  · refine Ensures.bind (fun _ => Calm) ?_ fun inputs => ?_
    · refine (calm_call (fun _ _ => True) fun world calm value last served => ?_).weaken
        (fun _ => id) (fun _ _ holds => holds.1) fun _ => id
      cases served
      exact ⟨calm, trivial⟩
    · refine Ensures.bind (fun _ world => Calm world ∧
        .fetched inputs.1 inputs.2 ∈ thisRun world.history) (fun world calm => ?_) fun _ =>
        Ensures.pure fun _ => id
      exact ⟨⟨calm.1.note trivial trivial (calm.2.due _),
        quiet_cons (fun _ _ same => by cases same) fun _ same => by cases same⟩,
        List.mem_cons_self⟩
  · refine Ensures.pure fun world holds => ⟨holds.1, fun decision member kind => ?_⟩
    obtain ⟨key, -, rfl⟩ := List.mem_map.mp member
    refine ⟨kind, inputs.1, inputs.2, holds.2, ?_⟩
    obtain ⟨employee, name, date⟩ :=
      dayDecision_key inputs.1 inputs.2 key.1 (candidateName candidates key) key.2
    rw [employee, name, date]

theorem syncReviewTask_calm :
    Ensures Calm (syncReviewTask (H := H)) (fun _ => Calm) Calm := by
  refine Ensures.bind (fun _ => Calm) ?_ fun _ => Ensures.pure fun _ => id
  refine Ensures.tried (calm_call (fun _ _ => True) fun world calm value last served => ?_)
    (fun _ _ => And.left) (fun _ => id) fun _ => id
  cases served
  exact ⟨calm, trivial⟩

theorem runEnabled_calm [DecidableEq H] (now : ℤ) :
    Ensures Calm (runEnabled (H := H) now) (fun _ => Calm) Calm := by
  refine Ensures.bind _ loadPendingAttempts_calm fun attempts => ?_
  refine Ensures.bind (fun _ => Calm) ?_ fun tally => ?_
  · rintro world ⟨calm, pending, distinct⟩
    exact reconcileAttempts_calm now attempts _ distinct world ⟨calm, pending⟩
  · refine Ensures.bind (fun _ => Calm) ?_ fun candidates => ?_
    · refine (calm_call (fun _ _ => True) fun world calm value last served => ?_).weaken
        (fun _ => id) (fun _ _ holds => holds.1) fun _ => id
      cases served
      exact ⟨calm, trivial⟩
    · split
      · exact Ensures.bind _ syncReviewTask_calm fun _ => Ensures.pure fun _ => id
      · refine Ensures.bind _ (classifyCandidates_calm candidates) fun decisions => ?_
        refine Ensures.bind (fun _ => Calm) ?_ fun tally =>
          Ensures.bind _ syncReviewTask_calm fun _ => Ensures.pure fun _ => id
        refine (correctDays_calm now _ _).weaken (fun world holds => ⟨holds.1, ?_⟩) (fun _ _ => id)
          fun _ => id
        intro decision member
        obtain ⟨read, kind⟩ := List.mem_filter.mp member
        exact holds.2 decision read (of_decide_eq_true kind)

theorem Occurs.calm [DecidableEq H] {start : Odoo H} (occurs : Occurs start world) :
    Calm world := by
  have first : Calm (World.initial start) :=
    ⟨Sound.initial start, ⟨fun _ _ same => (by cases same), fun _ same => by cases same⟩⟩
  refine Reachable.invariant first ?_ occurs
  · rintro world (⟨now, script⟩ | odoo) next calm - taken
    · cases taken
      have sound : Sound (world.note .began) := calm.1.note trivial trivial (calm.2.due _)
      have begun : Calm { world.note .began with script } :=
        ⟨sound.of_same rfl rfl rfl rfl le_rfl,
          quiet_cons (fun _ _ same => by cases same) fun _ same => by cases same⟩
      have ran := runEnabled_calm now _ begun
      rcases ended : runEnabled now { world.note .began with script } with ⟨_ | _ | _, reached⟩
      all_goals
        rw [ended] at ran
        exact ran
    · cases taken
      exact ⟨calm.1.edit calm.2 odoo,
        quiet_cons (fun _ _ same => by cases same) fun _ same => by cases same⟩

end PlantManager.Payroll

import PlantManager.Payroll.WorkEntryGuard

/-! # What may follow what in the history of the guard

`Payroll.Follows` says what the events before an event must be, and
`Payroll.Lawful` that it holds all along a history. `Payroll.Sound` ties
the history of a world to Odoo and to the tables; each thing that a service does keeps it.
-/

namespace PlantManager.Payroll

open Transition

variable {H : Type}

/-! ## Histories -/

/-- What happened since the last run began. -/
def thisRun : List (Event H) → List (Event H)
  | [] => []
  | .began :: _ => []
  | event :: past => event :: thisRun past

theorem thisRun_cons {event : Event H} (other : event ≠ .began) (past : List (Event H)) :
    thisRun (event :: past) = event :: thisRun past := by
  cases event with
  | began => exact absurd rfl other
  | _ => rfl

variable {past : List (Event H)} {intent : Intent H} {row : Option (WorkRow H)} {world : World H}

theorem thisRun_append {new : List (Event H)} (others : .began ∉ new) :
    thisRun (new ++ past) = new ++ thisRun past := by
  induction new with
  | nil => rfl
  | cons event new ih =>
      have rest := ih fun member => others (List.mem_cons_of_mem _ member)
      rw [List.cons_append, thisRun_cons (fun same => others (same ▸ List.mem_cons_self)), rest,
        List.cons_append]

/-- The event is the last one, or the last one before a failure. -/
def JustAfter (event : Event H) (past : List (Event H)) : Prop :=
  ∃ earlier, past = event :: earlier ∨ past = .failed :: event :: earlier

theorem JustAfter.mem {event : Event H} (last : JustAfter event past) : event ∈ past := by
  obtain ⟨earlier, rfl | rfl⟩ := last
  · exact List.mem_cons_self
  · exact List.mem_cons_of_mem _ List.mem_cons_self

/-- The event is not an edit of the entry by another user. -/
def Untouched (intent : Intent H) (event : Event H) : Prop :=
  ∀ before after, event = .edited before after →
    before.entry intent.decision.workEntryId = after.entry intent.decision.workEntryId

/-- The change of the attempt took effect, and nobody else edited its entry since. -/
def Standing (intent : Intent H) : List (Event H) → Prop
  | [] => False
  | event :: past =>
      event = .tookEffect intent ∨ Untouched intent event ∧ Standing intent past

variable [Hours H]

/-- A day that was read among the events has this decision, and it is to correct the day. -/
def Corrects (events : List (Event H)) (decision : Decision H) : Prop :=
  decision.kind = .correct ∧ ∃ workRows attendanceRows, .fetched workRows attendanceRows ∈ events ∧
    dayDecision workRows attendanceRows decision.employeeId decision.employeeName
      decision.workDate = decision

/-- The row of the entry shows the target of the decision. -/
def TargetRead (decision : Decision H) (row : Option (WorkRow H)) : Prop :=
  (decision.action = some .durationUpdate ∧ durationMatches row decision decision.afterDuration) ∨
    (decision.action = some .deleteZeroRegular ∧ row = none)

/-- What the past of an event must be. -/
def Follows (past : List (Event H)) : Event H → Prop
  | .saved intent =>
      Corrects (thisRun past) intent.decision ∧
        ∀ other, .saved other ∈ past → other.attemptId ≠ intent.attemptId
  | .sent intent row =>
      past.head? = some (.read intent row) ∧
        durationMatches row intent.decision (some intent.decision.beforeDuration) ∧
        .saved intent ∈ past ∧
        (Corrects (thisRun past) intent.decision ∨ .saved intent ∉ thisRun past)
  | .tookEffect intent => (∃ row, JustAfter (.sent intent row) past) ∧ ¬ Standing intent past
  | .finalizing intent =>
      ∃ row, past.head? = some (.read intent row) ∧ TargetRead intent.decision row
  | .finalized intent => JustAfter (.finalizing intent) past ∧ .finalized intent ∉ past
  | _ => True

/-- What the past leaves to be done at once: a target that was read is finalized, and then the
audit row is written unless the call fails. -/
def Due (past : List (Event H)) (event : Event H) : Prop :=
  (∀ intent row, past.head? = some (.read intent row) → TargetRead intent.decision row →
    event = .finalizing intent) ∧
  ∀ intent, past.head? = some (.finalizing intent) →
    event = .finalized intent ∨ event = .failed

def Lawful : List (Event H) → Prop
  | [] => True
  | event :: past => Follows past event ∧ Due past event ∧ Lawful past

/-- Nothing is left to be done at once. -/
def Quiet (past : List (Event H)) : Prop :=
  (∀ intent row, past.head? = some (.read intent row) → ¬ TargetRead intent.decision row) ∧
    ∀ intent, past.head? ≠ some (.finalizing intent)

theorem Quiet.due (quiet : Quiet past) (event : Event H) : Due past event :=
  ⟨fun intent row read target => absurd target (quiet.1 intent row read),
    fun intent last => absurd last (quiet.2 intent)⟩

theorem Corrects.mono {events more : List (Event H)} {decision : Decision H}
    (corrects : Corrects events decision) (sub : ∀ event ∈ events, event ∈ more) :
    Corrects more decision := by
  obtain ⟨kind, workRows, attendanceRows, member, same⟩ := corrects
  exact ⟨kind, workRows, attendanceRows, sub _ member, same⟩

/-- An attempt that this run saved was classified in this run. -/
theorem Lawful.corrects (lawful : Lawful past) (saved : .saved intent ∈ thisRun past) :
    Corrects (thisRun past) intent.decision := by
  induction past with
  | nil => exact absurd saved List.not_mem_nil
  | cons event past ih =>
      by_cases same : event = .began
      · subst same
        exact absurd saved List.not_mem_nil
      · rw [thisRun_cons same] at saved ⊢
        have later : ∀ other ∈ thisRun past, other ∈ event :: thisRun past :=
          fun _ => List.mem_cons_of_mem _
        rcases List.mem_cons.mp saved with rfl | before
        · exact lawful.1.1.mono later
        · exact (ih lawful.2.2 before).mono later

theorem Lawful.saved_of_sent (lawful : Lawful past) (sent : .sent intent row ∈ past) :
    .saved intent ∈ past := by
  induction past with
  | nil => exact absurd sent List.not_mem_nil
  | cons event past ih =>
      rcases List.mem_cons.mp sent with rfl | before
      · exact List.mem_cons_of_mem _ lawful.1.2.2.1
      · exact List.mem_cons_of_mem _ (ih lawful.2.2 before)

theorem Lawful.saved_of_standing (lawful : Lawful past) (standing : Standing intent past) :
    .saved intent ∈ past := by
  induction past with
  | nil => exact standing.elim
  | cons event past ih =>
      rcases standing with rfl | ⟨-, before⟩
      · obtain ⟨row, last⟩ := lawful.1.1
        exact List.mem_cons_of_mem _ (lawful.2.2.saved_of_sent last.mem)
      · exact List.mem_cons_of_mem _ (ih lawful.2.2 before)

/-! ## Worlds -/

def World.intents (world : World H) : List (Intent H) := world.attempts.map (·.toIntent)

def World.audited (world : World H) : List (Intent H) := world.corrections.map (·.toIntent)

/-- The history of a world agrees with Odoo and with the tables. -/
structure Sound (world : World H) : Prop where
  lawful : Lawful world.history
  saved : ∀ intent ∈ world.intents, .saved intent ∈ world.history
  drawn : ∀ intent, .saved intent ∈ world.history → intent.attemptId < world.ids
  attempts_nodup : (world.intents.map (·.attemptId)).Nodup
  entries_nodup : (world.intents.map (·.decision.workEntryId)).Nodup
  valid : ∀ intent ∈ world.intents, validateDecision intent.decision true = .ok ()
  standing : ∀ intent ∈ world.intents, Standing intent world.history →
    TargetRead intent.decision (world.odoo.entry intent.decision.workEntryId)
  finalized : ∀ intent, .finalized intent ∈ world.history ↔ intent ∈ world.audited
  audited_saved : ∀ intent ∈ world.audited, .saved intent ∈ world.history
  audited_nodup : (world.audited.map (·.attemptId)).Nodup
  apart : ∀ intent ∈ world.intents, ∀ other ∈ world.audited, other.attemptId ≠ intent.attemptId
  kept : ∀ intent, .saved intent ∈ world.history → intent ∈ world.intents ∨ intent ∈ world.audited

/-- A sound world in which nothing is left to be done at once. -/
def Calm (world : World H) : Prop := Sound world ∧ Quiet world.history

/-- The events that change neither Odoo nor the tables. -/
def Event.Silent : Event H → Prop
  | .saved _ | .tookEffect _ | .finalized _ | .edited _ _ => False
  | _ => True

theorem Sound.initial (odoo : Odoo H) : Sound (World.initial odoo) where
  lawful := trivial
  saved _ member := absurd member List.not_mem_nil
  drawn _ member := absurd member List.not_mem_nil
  attempts_nodup := List.nodup_nil
  entries_nodup := List.nodup_nil
  valid _ member := absurd member List.not_mem_nil
  standing _ member := absurd member List.not_mem_nil
  finalized _ :=
    ⟨fun member => absurd member List.not_mem_nil, fun member => absurd member List.not_mem_nil⟩
  audited_saved _ member := absurd member List.not_mem_nil
  audited_nodup := List.nodup_nil
  apart _ member := absurd member List.not_mem_nil
  kept _ member := absurd member List.not_mem_nil

theorem Sound.note {world : World H} (sound : Sound world) {event : Event H}
    (silent : event.Silent) (follows : Follows world.history event)
    (due : Due world.history event) : Sound (world.note event) where
  lawful := ⟨follows, due, sound.lawful⟩
  saved intent member := List.mem_cons_of_mem _ (sound.saved intent member)
  drawn intent member := by
    rcases List.mem_cons.mp member with rfl | before
    · exact silent.elim
    · exact sound.drawn intent before
  attempts_nodup := sound.attempts_nodup
  entries_nodup := sound.entries_nodup
  valid := sound.valid
  standing intent member := by
    rintro (rfl | ⟨-, before⟩)
    · exact silent.elim
    · exact sound.standing intent member before
  finalized intent := by
    refine Iff.trans ⟨fun member => ?_, List.mem_cons_of_mem _⟩ (sound.finalized intent)
    rcases List.mem_cons.mp member with rfl | before
    · exact silent.elim
    · exact before
  audited_saved intent member := List.mem_cons_of_mem _ (sound.audited_saved intent member)
  audited_nodup := sound.audited_nodup
  apart := sound.apart
  kept intent member := by
    rcases List.mem_cons.mp member with rfl | before
    · exact silent.elim
    · exact sound.kept intent before

/-- The verdicts to come, the ids to draw and the notes of the attempts do not matter. -/
theorem Sound.of_same {world other : World H} (sound : Sound world) (odoo : other.odoo = world.odoo)
    (intents : other.intents = world.intents) (audited : other.audited = world.audited)
    (history : other.history = world.history) (ids : world.ids ≤ other.ids) : Sound other where
  lawful := history ▸ sound.lawful
  saved := by rw [intents, history]; exact sound.saved
  drawn intent member := (sound.drawn intent (history ▸ member)).trans_le ids
  attempts_nodup := intents ▸ sound.attempts_nodup
  entries_nodup := intents ▸ sound.entries_nodup
  valid := by rw [intents]; exact sound.valid
  standing := by rw [intents, history, odoo]; exact sound.standing
  finalized := by rw [audited, history]; exact sound.finalized
  audited_saved := by rw [audited, history]; exact sound.audited_saved
  audited_nodup := audited ▸ sound.audited_nodup
  apart := by rw [intents, audited]; exact sound.apart
  kept := by rw [intents, audited, history]; exact sound.kept

theorem Sound.edit (sound : Sound world) (quiet : Quiet world.history) (odoo : Odoo H) :
    Sound { world.note (.edited world.odoo odoo) with odoo } where
  lawful := ⟨trivial, quiet.due _, sound.lawful⟩
  saved intent member := List.mem_cons_of_mem _ (sound.saved intent member)
  drawn intent member := sound.drawn intent ((List.mem_cons.mp member).resolve_left nofun)
  attempts_nodup := sound.attempts_nodup
  entries_nodup := sound.entries_nodup
  valid := sound.valid
  standing intent member := by
    rintro (same | ⟨untouched, before⟩)
    · cases same
    · have target := sound.standing intent member before
      rwa [untouched _ _ rfl] at target
  finalized intent :=
    Iff.trans ⟨List.mem_of_ne_of_mem nofun, List.mem_cons_of_mem _⟩ (sound.finalized intent)
  audited_saved intent member := List.mem_cons_of_mem _ (sound.audited_saved intent member)
  audited_nodup := sound.audited_nodup
  apart := sound.apart
  kept intent member := sound.kept intent ((List.mem_cons.mp member).resolve_left nofun)

theorem JustAfter.quiet_of_sent (last : JustAfter (.sent intent row) past) : Quiet past := by
  obtain ⟨earlier, rfl | rfl⟩ := last
  · exact ⟨fun _ _ same => (by cases same), fun _ same => (by cases same)⟩
  · exact ⟨fun _ _ same => (by cases same), fun _ same => (by cases same)⟩

theorem JustAfter.due_finalized (last : JustAfter (.finalizing intent) past) :
    Due past (.finalized intent) := by
  obtain ⟨earlier, rfl | rfl⟩ := last
  · exact ⟨fun _ _ same => (by cases same), fun _ same => (by cases same; exact .inl rfl)⟩
  · exact ⟨fun _ _ same => (by cases same), fun _ same => (by cases same)⟩

/-- The change of a pending attempt takes effect. -/
theorem Sound.mutate (sound : Sound world) {odoo : Odoo H} (pending : intent ∈ world.intents)
    (last : JustAfter (.sent intent row) world.history) (fresh : ¬ Standing intent world.history)
    (others : ∀ entryId, entryId ≠ intent.decision.workEntryId →
      odoo.entry entryId = world.odoo.entry entryId)
    (target : TargetRead intent.decision (odoo.entry intent.decision.workEntryId)) :
    Sound ({ world with odoo }.note (.tookEffect intent)) where
  lawful := ⟨⟨⟨row, last⟩, fresh⟩, last.quiet_of_sent.due _, sound.lawful⟩
  saved other member := List.mem_cons_of_mem _ (sound.saved other member)
  drawn other member := sound.drawn other ((List.mem_cons.mp member).resolve_left nofun)
  attempts_nodup := sound.attempts_nodup
  entries_nodup := sound.entries_nodup
  valid := sound.valid
  standing other member stands := by
    by_cases same : other = intent
    · exact same ▸ target
    · have apart : other.decision.workEntryId ≠ intent.decision.workEntryId := fun equal =>
        same (List.inj_on_of_nodup_map sound.entries_nodup member pending equal)
      change TargetRead other.decision (odoo.entry other.decision.workEntryId)
      rw [others _ apart]
      rcases stands with took | ⟨-, before⟩
      · cases took
        exact absurd rfl same
      · exact sound.standing other member before
  finalized other :=
    Iff.trans ⟨List.mem_of_ne_of_mem nofun, List.mem_cons_of_mem _⟩ (sound.finalized other)
  audited_saved other member := List.mem_cons_of_mem _ (sound.audited_saved other member)
  audited_nodup := sound.audited_nodup
  apart := sound.apart
  kept other member := sound.kept other ((List.mem_cons.mp member).resolve_left nofun)

variable {attempts : List (CorrectionAttempt H)}

/-- An attempt on an entry that has no pending attempt is saved. -/
theorem Sound.save (sound : Sound world) (quiet : Quiet world.history)
    (intents : attempts.map (·.toIntent) = world.intents ++ [intent])
    (corrects : Corrects (thisRun world.history) intent.decision)
    (drawn : intent.attemptId < world.ids)
    (fresh : ∀ other, .saved other ∈ world.history → other.attemptId ≠ intent.attemptId)
    (entry : ∀ other ∈ world.intents, other.decision.workEntryId ≠ intent.decision.workEntryId)
    (valid : validateDecision intent.decision true = .ok ()) :
    Sound ({ world with attempts }.note (.saved intent)) := by
  have known : ∀ other ∈ attempts.map (·.toIntent), other ∈ world.intents ∨ other = intent := by
    intro other member
    rw [intents] at member
    exact (List.mem_append.mp member).imp_right List.mem_singleton.mp
  exact {
    lawful := ⟨⟨corrects, fresh⟩, quiet.due _, sound.lawful⟩
    saved := fun other member => by
      rcases known other member with old | rfl
      · exact List.mem_cons_of_mem _ (sound.saved other old)
      · exact List.mem_cons_self
    drawn := fun other member => by
      rcases List.mem_cons.mp member with same | before
      · cases same
        exact drawn
      · exact sound.drawn other before
    attempts_nodup := by
      change ((attempts.map (·.toIntent)).map (·.attemptId)).Nodup
      rw [intents, List.map_append]
      refine sound.attempts_nodup.append (List.nodup_singleton _) fun id old new => ?_
      obtain ⟨other, member, rfl⟩ := List.mem_map.mp old
      exact fresh other (sound.saved other member) (List.mem_singleton.mp new)
    entries_nodup := by
      change ((attempts.map (·.toIntent)).map (·.decision.workEntryId)).Nodup
      rw [intents, List.map_append]
      refine sound.entries_nodup.append (List.nodup_singleton _) fun id old new => ?_
      obtain ⟨other, member, rfl⟩ := List.mem_map.mp old
      exact entry other member (List.mem_singleton.mp new)
    valid := fun other member => by
      rcases known other member with old | rfl
      · exact sound.valid other old
      · exact valid
    standing := fun other member => by
      rintro (same | ⟨-, before⟩)
      · cases same
      · rcases known other member with old | rfl
        · exact sound.standing other old before
        · exact absurd rfl (fresh other (sound.lawful.saved_of_standing before))
    finalized := fun other =>
      Iff.trans ⟨List.mem_of_ne_of_mem nofun, List.mem_cons_of_mem _⟩ (sound.finalized other)
    audited_saved := fun other member => List.mem_cons_of_mem _ (sound.audited_saved other member)
    audited_nodup := sound.audited_nodup
    apart := fun other member audited done => by
      rcases known other member with old | rfl
      · exact sound.apart other old audited done
      · exact fresh audited (sound.audited_saved audited done)
    kept := fun other member => by
      change other ∈ attempts.map (·.toIntent) ∨ _
      rw [intents]
      rcases List.mem_cons.mp member with same | before
      · cases same
        exact .inl List.mem_concat_self
      · exact (sound.kept other before).imp_left fun old => List.mem_append_left _ old }

/-- The audit row of a pending attempt is written and the attempt removed. -/
theorem Sound.finalize (sound : Sound world) {corrections : List (Correction H)}
    (pending : intent ∈ world.intents) (last : JustAfter (.finalizing intent) world.history)
    (intents : attempts.map (·.toIntent) =
      world.intents.filter fun other => other.attemptId ≠ intent.attemptId)
    (audited : corrections.map (·.toIntent) = world.audited ++ [intent]) :
    Sound ({ world with attempts, corrections }.note (.finalized intent)) := by
  have others : ∀ other ∈ attempts.map (·.toIntent),
      other ∈ world.intents ∧ other.attemptId ≠ intent.attemptId := by
    intro other member
    rw [intents] at member
    exact ⟨List.mem_of_mem_filter member, of_decide_eq_true (List.mem_filter.mp member).2⟩
  have audits : ∀ other ∈ corrections.map (·.toIntent),
      other ∈ world.audited ∨ other = intent := by
    intro other member
    rw [audited] at member
    exact (List.mem_append.mp member).imp_right List.mem_singleton.mp
  exact {
    lawful := by
      refine ⟨⟨last, fun done => ?_⟩, last.due_finalized, sound.lawful⟩
      exact sound.apart intent pending intent ((sound.finalized intent).mp done) rfl
    saved := fun other member => List.mem_cons_of_mem _ (sound.saved other (others other member).1)
    drawn := fun other member => sound.drawn other ((List.mem_cons.mp member).resolve_left nofun)
    attempts_nodup := by
      change ((attempts.map (·.toIntent)).map (·.attemptId)).Nodup
      rw [intents]
      exact sound.attempts_nodup.sublist (List.filter_sublist.map _)
    entries_nodup := by
      change ((attempts.map (·.toIntent)).map (·.decision.workEntryId)).Nodup
      rw [intents]
      exact sound.entries_nodup.sublist (List.filter_sublist.map _)
    valid := fun other member => sound.valid other (others other member).1
    standing := fun other member stands => by
      rcases stands with same | ⟨-, before⟩
      · cases same
      · exact sound.standing other (others other member).1 before
    finalized := fun other => by
      change _ ↔ other ∈ corrections.map (·.toIntent)
      rw [audited, List.mem_append, List.mem_singleton, ← sound.finalized other]
      constructor
      · intro member
        rcases List.mem_cons.mp member with same | before
        · cases same
          exact .inr rfl
        · exact .inl before
      · rintro (before | rfl)
        · exact List.mem_cons_of_mem _ before
        · exact List.mem_cons_self
    audited_saved := fun other member => by
      rcases audits other member with old | rfl
      · exact List.mem_cons_of_mem _ (sound.audited_saved other old)
      · exact List.mem_cons_of_mem _ (sound.saved other pending)
    audited_nodup := by
      change ((corrections.map (·.toIntent)).map (·.attemptId)).Nodup
      rw [audited, List.map_append]
      refine sound.audited_nodup.append (List.nodup_singleton _) fun id old new => ?_
      obtain ⟨other, member, rfl⟩ := List.mem_map.mp old
      exact sound.apart intent pending other member (List.mem_singleton.mp new)
    apart := fun other member done audit => by
      rcases audits done audit with old | rfl
      · exact sound.apart other (others other member).1 done old
      · exact (others other member).2.symm
    kept := fun other member => by
      change other ∈ attempts.map (·.toIntent) ∨ other ∈ corrections.map (·.toIntent)
      rw [intents, audited]
      rcases sound.kept other ((List.mem_cons.mp member).resolve_left nofun) with old | done
      · by_cases same : other.attemptId = intent.attemptId
        · have equal := List.inj_on_of_nodup_map sound.attempts_nodup old pending same
          exact .inr (equal ▸ List.mem_concat_self)
        · exact .inl (List.mem_filter.mpr ⟨old, decide_eq_true same⟩)
      · exact .inr (List.mem_append_left _ done) }

end PlantManager.Payroll

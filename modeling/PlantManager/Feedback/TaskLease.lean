import PlantManager.Feedback.TaskOutcome

/-! # The leases of the owner tasks

`Feedback.TaskWorker.taskDelivery_exclusive`: as long as the reconciliation of
lifecycles leaves alone a row in flight whose lease lasts, and a row that waits for its retry
without a newer version, leases are exclusive and retries wait; and if every call that writes
to Odoo ends within its lease, no two sessions write at the same time and a result note is
posted once. `Feedback.TaskWorker.taskDelivery_claimed_twice` is a run in which two
sessions hold the row.
-/

namespace PlantManager.Feedback.TaskWorker

open PlantManager.Transition

variable {S : Type*}

/-- What decides when the row may be claimed again. -/
def Event.turns : Event S → Bool
  | .claimed _ _ => true
  | .retried _ => true
  | .arrived => true
  | _ => false

/-- Leases are exclusive and retries wait. -/
structure Exclusive [DecidableEq S] (state : State S) : Prop where
  /-- While the lease of a session lasts, nobody obtains a claim. -/
  leased : ∀ session claim, (state.sessions session).claim = some claim →
    state.clock < claim.expiresAt → ∀ other owner now, step state (.claim other owner now) = none
  /-- The first claim after a retry was scheduled, without a newer version, is not early. -/
  waited : ∀ later session now earlier due, state.history = later ++ .claimed session now :: earlier →
    earlier.find? Event.turns = some (.retried due) → due ≤ now

/-- Writers are apart, and no result note is posted twice. -/
structure Apart (state : State S) : Prop where
  writers : ∀ first second, (state.sessions first).Calling → (state.sessions second).Calling →
    first = second
  once : ∀ version, (state.notes.map Prod.snd).count version ≤ 1

/-- The reconciliation leaves alone a row whose lease lasts, and a row that waits for its retry
unless a newer version arrived. -/
def Respects (state : State S) (action : Action S) : Prop :=
  action = .queueExisting → LifecycleMismatch state.record state.row →
    (∀ lease ∈ state.row.state.lease, lease.expiresAt ≤ state.clock) ∧
    (state.row.state = .attention → state.row.dueAt ≤ state.clock ∨
      state.row.desiredVersion < state.record.projectionVersion ∨
      state.row.desiredContractVersion < taskSyncContractVersion)

instance [DecidableEq S] (state : State S) (action : Action S) :
    Decidable (Respects state action) :=
  inferInstanceAs (Decidable (_ → _ → _ ∧ _))

def Action.ticked : Action S → Option ℤ
  | .tick now => some now
  | _ => none

def Action.renewed : Action S → Option ℤ
  | .renew _ now => some now
  | _ => none

/-- Every call that writes to Odoo ends within the lease that was renewed just before it. -/
def CallsEnd (state : State S) (action : Action S) : Prop :=
  (∀ now ∈ action.ticked, ∀ session, (state.sessions session).Calling →
    ∀ claim ∈ (state.sessions session).claim, now < claim.expiresAt) ∧
  ∀ now ∈ action.renewed, state.clock < now + claimLease

instance [Fintype S] (state : State S) (action : Action S) : Decidable (CallsEnd state action) :=
  inferInstanceAs (Decidable (_ ∧ _))

/-! ## Leases -/

structure Leased (state : State S) : Prop where
  fresh : ∀ session claim, (state.sessions session).claim = some claim →
    claim.claimToken < state.nextToken
  rowFresh : ∀ lease, state.row.state = .inFlight lease → lease.token < state.nextToken
  apart : ∀ first second, first ≠ second → ∀ claim other,
    (state.sessions first).claim = some claim → (state.sessions second).claim = some other →
      claim.claimToken ≠ other.claimToken
  current : ∀ session claim lease, (state.sessions session).claim = some claim →
    state.row.state = .inFlight lease → lease.token = claim.claimToken →
      lease.expiresAt = claim.expiresAt
  lasting : ∀ session claim, (state.sessions session).claim = some claim →
    state.clock < claim.expiresAt →
      ∃ lease, state.row.state = .inFlight lease ∧ lease.token = claim.claimToken

theorem leased_initial (behavior : Behavior) (hasBeforeImage : Bool) (now : ℤ) :
    Leased (State.initial S behavior hasBeforeImage now) := by
  constructor <;> simp [State.initial, Phase.claim, enqueueSubmission]

theorem Moves.not_turns {state : State S} {phase later : Phase} {events : List (Event S)}
    (moves : Moves state phase later events) : ∀ event ∈ events, event.turns = false := by
  cases moves <;> simp [Event.turns]

theorem Moves.not_calling {state : State S} {phase later : Phase} {events : List (Event S)}
    (moves : Moves state phase later events) : ¬later.Calling := by
  cases moves with
  | agrees | updated => unfold afterFields; split <;> exact id
  | _ => exact id

section Step

variable [DecidableEq S] {state next : State S} {action : Action S}

@[simp] theorem sessions_become_self (session : S) (phase : Phase) :
    (state.become session phase).sessions session = phase := Function.update_self ..

theorem sessions_become_of_ne {session other : S} (different : other ≠ session) (phase : Phase) :
    (state.become session phase).sessions other = state.sessions other :=
  Function.update_of_ne different ..

namespace Leased

omit [DecidableEq S] in
/-- The record, the notes and the history do not matter to the leases. -/
theorem frame (leased : Leased state) (clock : next.clock = state.clock)
    (row : next.row = state.row) (nextToken : next.nextToken = state.nextToken)
    (sessions : next.sessions = state.sessions) : Leased next where
  fresh := by
    rw [sessions, nextToken]
    exact leased.fresh
  rowFresh := by
    rw [row, nextToken]
    exact leased.rowFresh
  apart := by
    rw [sessions]
    exact leased.apart
  current := by
    rw [sessions, row]
    exact leased.current
  lasting := by
    rw [sessions, row, clock]
    exact leased.lasting

omit [DecidableEq S] in
/-- A row that is rewritten keeps its lease, or loses one that expired. -/
theorem changeRow (leased : Leased state) {row : DeliveryRow}
    (kept : ∀ lease, row.state = .inFlight lease → state.row.state = .inFlight lease)
    (lost : ∀ lease, state.row.state = .inFlight lease → state.clock < lease.expiresAt →
      row.state = .inFlight lease) : Leased { state with row := row } where
  fresh := leased.fresh
  rowFresh lease flying := leased.rowFresh lease (kept lease flying)
  apart := leased.apart
  current session claim lease held flying := leased.current session claim lease held (kept lease flying)
  lasting := by
    intro session claim held lasts
    obtain ⟨lease, flying, token⟩ := leased.lasting session claim held lasts
    have expires := leased.current session claim lease held flying token
    exact ⟨lease, lost lease flying (expires ▸ lasts), token⟩

/-- A session that moves keeps its claim. -/
theorem move (leased : Leased state) {session : S} {phase : Phase}
    (kept : phase.claim = (state.sessions session).claim) :
    Leased (state.become session phase) := by
  have same : ∀ other, ((state.become session phase).sessions other).claim =
      (state.sessions other).claim := by
    intro other
    by_cases own : other = session
    · subst own
      rw [sessions_become_self, kept]
    · rw [sessions_become_of_ne own]
  exact {
    fresh := fun other claim held => leased.fresh other claim ((same other).symm.trans held)
    rowFresh := leased.rowFresh
    apart := fun first second different claim other held also =>
      leased.apart first second different claim other ((same first).symm.trans held)
        ((same second).symm.trans also)
    current := fun other claim lease held =>
      leased.current other claim lease ((same other).symm.trans held)
    lasting := fun other claim held => leased.lasting other claim ((same other).symm.trans held) }

/-- A statement of the session that holds the lease. -/
theorem write (leased : Leased state) {session : S} {claim : TaskDeliveryClaim} {phase : Phase}
    {row : DeliveryRow} (held : (state.sessions session).claim = some claim)
    (flying : ∃ lease, state.row.state = .inFlight lease ∧ lease.token = claim.claimToken)
    (own : ∀ lease, row.state = .inFlight lease → lease.token = claim.claimToken)
    (saved : ∀ saved, phase.claim = some saved → saved.claimToken = claim.claimToken ∧
      ∃ lease, row.state = .inFlight lease ∧ lease.expiresAt = saved.expiresAt) :
    Leased { state.become session phase with row := row } := by
  obtain ⟨before, flying, token⟩ := flying
  have others : ∀ other, other ≠ session →
      ({ state.become session phase with row := row } : State S).sessions other =
        state.sessions other := fun other different => sessions_become_of_ne different phase
  have self : ({ state.become session phase with row := row } : State S).sessions session =
      phase := sessions_become_self session phase
  -- Another session does not hold the row, whose lease is the session's own.
  have foreign : ∀ other, other ≠ session → ∀ theirs,
      (state.sessions other).claim = some theirs → claim.claimToken ≠ theirs.claimToken :=
    fun other different theirs also =>
      leased.apart session other (Ne.symm different) claim theirs held also
  exact {
    fresh := by
      intro other theirs also
      by_cases same : other = session
      · subst same
        rw [self] at also
        rw [(saved theirs also).1]
        exact leased.fresh other claim held
      · rw [others other same] at also
        exact leased.fresh other theirs also
    rowFresh := by
      intro lease flies
      rw [own lease flies]
      exact leased.fresh session claim held
    apart := by
      intro first second different mine theirs holds also
      by_cases isFirst : first = session
      · subst isFirst
        rw [self] at holds
        rw [others second (Ne.symm different)] at also
        rw [(saved mine holds).1]
        exact foreign second (Ne.symm different) theirs also
      · rw [others first isFirst] at holds
        by_cases isSecond : second = session
        · subst isSecond
          rw [self] at also
          rw [(saved theirs also).1]
          exact Ne.symm (foreign first isFirst mine holds)
        · rw [others second isSecond] at also
          exact leased.apart first second different mine theirs holds also
    current := by
      intro other theirs lease also flies same
      by_cases isSelf : other = session
      · subst isSelf
        rw [self] at also
        obtain ⟨-, granted, flies', expires⟩ := saved theirs also
        obtain rfl := DeliveryState.inFlight.inj (flies.symm.trans flies')
        exact expires
      · rw [others other isSelf] at also
        exact absurd ((own lease flies).symm.trans same) (foreign other isSelf theirs also)
    lasting := by
      intro other theirs also lasts
      by_cases isSelf : other = session
      · subst isSelf
        rw [self] at also
        obtain ⟨same, granted, flies, -⟩ := saved theirs also
        exact ⟨granted, flies, (own granted flies).trans same.symm⟩
      · rw [others other isSelf] at also
        obtain ⟨lease, flies, theirToken⟩ := leased.lasting other theirs also lasts
        obtain rfl := DeliveryState.inFlight.inj (flying.symm.trans flies)
        exact absurd (token.symm.trans theirToken) (foreign other isSelf theirs also) }

/-- A session that claims the row gets a fresh token. -/
theorem claim (leased : Leased state) {session : S} {owner : String} {now : ℤ}
    {claim : TaskDeliveryClaim} {row : DeliveryRow} (past : now ≤ state.clock)
    (claimed : claimDue now owner state.nextToken state.row = some (claim, row)) :
    Leased { state.become session (.claimed claim) with
      row := row, nextToken := state.nextToken + 1 } := by
  obtain ⟨due, rfl, rfl⟩ := claimDue_eq_some claimed
  -- The lease of a claim that still lasts would make the row not due.
  have expired : ∀ other theirs, (state.sessions other).claim = some theirs →
      ¬state.clock < theirs.expiresAt := by
    intro other theirs held lasts
    obtain ⟨lease, flying, token⟩ := leased.lasting other theirs held lasts
    rw [flying] at due
    have expires := leased.current other theirs lease held flying token
    exact absurd (expires ▸ due.trans past) (not_le.mpr lasts)
  refine {
    fresh := ?_
    rowFresh := ?_
    apart := ?_
    current := ?_
    lasting := ?_ }
  · intro other theirs held
    by_cases same : other = session
    · subst same
      rw [sessions_become_self] at held
      exact Option.some.inj held ▸ Nat.lt_succ_self _
    · change ((state.become session _).sessions other).claim = _ at held
      rw [sessions_become_of_ne same] at held
      exact Nat.lt_succ_of_lt (leased.fresh other theirs held)
  · intro lease flies
    obtain rfl := DeliveryState.inFlight.inj flies
    exact Nat.lt_succ_self _
  · intro first second different mine theirs holds also
    by_cases isFirst : first = session
    · subst isFirst
      rw [sessions_become_self] at holds
      rw [sessions_become_of_ne (Ne.symm different)] at also
      have old := leased.fresh second theirs also
      exact Option.some.inj holds ▸ Nat.ne_of_gt old
    · rw [sessions_become_of_ne isFirst] at holds
      by_cases isSecond : second = session
      · subst isSecond
        rw [sessions_become_self] at also
        have old := leased.fresh first mine holds
        exact Option.some.inj also ▸ Nat.ne_of_lt old
      · rw [sessions_become_of_ne isSecond] at also
        exact leased.apart first second different mine theirs holds also
  · intro other theirs lease held flies same
    obtain rfl := DeliveryState.inFlight.inj flies
    by_cases own : other = session
    · subst own
      rw [sessions_become_self] at held
      exact Option.some.inj held ▸ rfl
    · rw [sessions_become_of_ne own] at held
      exact absurd same (Nat.ne_of_gt (leased.fresh other theirs held))
  · intro other theirs held lasts
    change ((state.become session _).sessions other).claim = _ at held
    by_cases own : other = session
    · subst own
      rw [sessions_become_self] at held
      exact ⟨_, rfl, Option.some.inj held ▸ rfl⟩
    · rw [sessions_become_of_ne own] at held
      exact absurd lasts (expired other theirs held)

/-- Whoever respects the leases keeps them. -/
theorem step (leased : Leased state) (respects : Respects state action)
    (taken : step state action = some next) : Leased next := by
  cases step_outcome taken with
  | tick later =>
      exact {
        fresh := leased.fresh
        rowFresh := leased.rowFresh
        apart := leased.apart
        current := leased.current
        lasting := fun session claim held lasts =>
          leased.lasting session claim held (later.trans_lt lasts) }
  | transition past moved queued =>
      obtain ⟨-, -, -, -, -, flying⟩ := enqueueLifecycle_eq_some queued
      have kept := leased.changeRow (fun lease => (flying lease).mp)
        fun lease flies _ => (flying lease).mpr flies
      exact kept.frame rfl rfl rfl rfl
  | adopt moved adopted =>
      obtain ⟨before, after, -⟩ := adoptDelivery_eq_some adopted
      have kept := leased.changeRow (fun lease flies => by rw [after] at flies; cases flies)
        fun lease flies _ => by rw [before] at flies; cases flies
      exact kept.frame rfl rfl rfl rfl
  | queue queued =>
      obtain ⟨mismatch, pending, -⟩ := queueExistingLifecycleMismatches_eq_some queued
      have kept := leased.changeRow (fun lease flies => by rw [pending] at flies; cases flies)
        fun lease flies lasts => by
          have expired := (respects rfl mismatch).1 lease (by rw [flies]; rfl)
          exact absurd expired (not_le.mpr lasts)
      exact kept.frame rfl rfl rfl rfl
  | claim past idle claimed =>
      exact (leased.claim past claimed).frame rfl rfl rfl rfl
  | move moves =>
      exact (leased.move moves.claim).frame rfl rfl rfl rfl
  | recordTask finds recorded =>
      obtain ⟨lease, flying, token, -, rfl, rfl⟩ := recordTaskId_eq_some recorded
      refine leased.write finds.claim ⟨lease, flying, token⟩ ?_ ?_
      · intro other flies
        exact DeliveryState.inFlight.inj (flying.symm.trans flies) ▸ token
      · rintro saved ⟨⟩
        exact ⟨token, lease, flying, rfl⟩
  | recordAttachment attaches recorded =>
      obtain ⟨lease, flying, token, -, rfl, rfl⟩ := recordBeforeAttachment_eq_some recorded
      refine leased.write attaches.claim ⟨lease, flying, token⟩ ?_ ?_
      · intro other flies
        exact DeliveryState.inFlight.inj (flying.symm.trans flies) ▸ token
      · rintro saved ⟨⟩
        exact ⟨token, lease, flying, rfl⟩
  | renew past renews extended =>
      obtain ⟨lease, flying, token, -, rfl, rfl⟩ := renewClaim_eq_some extended
      refine leased.write renews.claim.1 ⟨lease, flying, token⟩ ?_ ?_
      · intro other flies
        exact DeliveryState.inFlight.inj flies ▸ token
      · intro saved held
        rw [renews.claim.2] at held
        obtain rfl := Option.some.inj held
        exact ⟨token, _, rfl, rfl⟩
  | lands posting task =>
      refine (leased.move ?_).frame rfl rfl rfl rfl
      rw [posting]
      rfl
  | mark past verified marked =>
      obtain ⟨flying, -, -, -, -, -, settled, -⟩ := markDelivered_eq_some marked
      refine leased.write (by rw [verified]; rfl) flying (fun lease flies => ?_) nofun
      rcases settled with ⟨settled, -⟩ | settled <;> rw [settled] at flies <;> cases flies
  | @retry session now claim row past held scheduled =>
      obtain ⟨flying, same⟩ := scheduleRetry_eq_some scheduled
      have waits : row.state = .attention := same ▸ rfl
      have kept : Leased { state.become session .idle with row := row } :=
        leased.write held flying (fun lease flies => by rw [waits] at flies; cases flies) nofun
      exact kept.frame rfl rfl rfl rfl
  | block held blocked =>
      obtain ⟨flying, rfl⟩ := block_eq_some blocked
      exact leased.write held flying nofun nofun

end Leased

/-! ## Retries -/

structure Backoff (state : State S) : Prop where
  waiting : ∀ due, state.history.find? Event.turns = some (.retried due) →
    (state.row.state = .attention ∧ state.row.dueAt = due) ∨
      (state.row.state = .pending ∧ due ≤ state.row.dueAt ∧ due ≤ state.clock)
  waited : ∀ later session now earlier due, state.history = later ++ .claimed session now :: earlier →
    earlier.find? Event.turns = some (.retried due) → due ≤ now

omit [DecidableEq S] in
theorem backoff_initial (behavior : Behavior) (hasBeforeImage : Bool) (now : ℤ) :
    Backoff (State.initial S behavior hasBeforeImage now) := by
  constructor <;> simp [State.initial]

namespace Backoff

omit [DecidableEq S] in
/-- A row in flight waits for no retry. -/
theorem not_waiting (backoff : Backoff state) {lease : Lease}
    (flying : state.row.state = .inFlight lease) {due : ℤ} :
    state.history.find? Event.turns ≠ some (.retried due) := by
  intro latest
  rcases backoff.waiting due latest with ⟨waits, -⟩ | ⟨waits, -⟩ <;>
    rw [flying] at waits <;> cases waits

omit [DecidableEq S] in
/-- Events that are no claims leave the claims of the past alone. -/
theorem waited_append (backoff : Backoff state) (events : List (Event S))
    (quiet : ∀ event ∈ events, ∀ session now, event ≠ .claimed session now) :
    ∀ later session now earlier due,
      events ++ state.history = later ++ .claimed session now :: earlier →
      earlier.find? Event.turns = some (.retried due) → due ≤ now := by
  intro later session now earlier due same latest
  obtain ⟨later', before⟩ :=
    stands_of_append (fun event member => quiet event member session now) same
  exact backoff.waited later' session now earlier due before latest

omit [DecidableEq S] in
/-- A statement on a row in flight that is no retry. -/
theorem write (backoff : Backoff state) {lease : Lease}
    (flying : state.row.state = .inFlight lease) (history : next.history = state.history) :
    Backoff next where
  waiting due latest := absurd (history ▸ latest) (backoff.not_waiting flying)
  waited := by
    rw [history]
    exact backoff.waited

theorem step (backoff : Backoff state) (respects : Respects state action)
    (taken : TaskWorker.step state action = some next) : Backoff next := by
  cases step_outcome taken with
  | tick later =>
      exact {
        waiting := fun due latest =>
          (backoff.waiting due latest).imp_right fun ⟨pending, after, past⟩ =>
            ⟨pending, after, past.trans later⟩
        waited := backoff.waited }
  | transition past moved queued =>
      exact {
        waiting := fun due latest => by cases latest
        waited := backoff.waited_append [.arrived] (by simp) }
  | adopt moved adopted =>
      obtain ⟨before, -⟩ := adoptDelivery_eq_some adopted
      exact {
        waiting := fun due latest => by
          rcases backoff.waiting due latest with ⟨waits, -⟩ | ⟨waits, -⟩ <;>
            rw [before] at waits <;> cases waits
        waited := backoff.waited_append [.adopted _ _] (by simp) }
  | @queue row queued =>
      obtain ⟨mismatch, pending, due, version, -, contract, -⟩ :=
        queueExistingLifecycleMismatches_eq_some queued
      by_cases newer : state.row.desiredVersion < row.desiredVersion ∨
          state.row.desiredContractVersion < row.desiredContractVersion
      · rw [if_pos newer]
        exact {
          waiting := fun due latest => by cases latest
          waited := backoff.waited_append [.arrived] (by simp) }
      · rw [if_neg newer]
        exact {
          waiting := by
            intro retryAt latest
            refine Or.inr ⟨pending, ?_⟩
            rw [due]
            rcases backoff.waiting retryAt latest with ⟨waits, rfl⟩ | ⟨-, -, past⟩
            · rcases (respects rfl mismatch).2 waits with past | ahead
              · exact ⟨past, past⟩
              · rw [version, contract] at newer
                exact absurd ahead newer
            · exact ⟨past, past⟩
          waited := backoff.waited }
  | claim past idle claimed =>
      obtain ⟨due, rfl, rfl⟩ := claimDue_eq_some claimed
      exact {
        waiting := fun due latest => by cases latest
        waited := by
          intro later other now earlier retryAt same latest
          cases later with
          | nil =>
              obtain ⟨first, rfl⟩ := List.cons.inj same
              obtain ⟨-, rfl⟩ := Event.claimed.inj first
              rcases backoff.waiting retryAt latest with ⟨waits, rfl⟩ | ⟨waits, after, -⟩
              · rwa [waits] at due
              · rw [waits] at due
                exact after.trans due
          | cons event later =>
              exact backoff.waited later other now earlier retryAt (List.cons.inj same).2 latest }
  | @move _ session phase events moves =>
      have latest : (events ++ state.history).find? Event.turns =
          state.history.find? Event.turns := by
        rw [List.find?_append, List.find?_eq_none.mpr fun event member => by
          rw [moves.not_turns event member]
          exact Bool.false_ne_true, Option.none_or]
      exact {
        waiting := fun due found => backoff.waiting due (latest.symm.trans found)
        waited := backoff.waited_append events fun event member other now same => by
          have quiet := moves.not_turns event member
          rw [same] at quiet
          cases quiet }
  | recordTask finds recorded =>
      obtain ⟨lease, flying, -⟩ := recordTaskId_eq_some recorded
      exact backoff.write flying rfl
  | recordAttachment attaches recorded =>
      obtain ⟨lease, flying, -⟩ := recordBeforeAttachment_eq_some recorded
      exact backoff.write flying rfl
  | renew past renews extended =>
      obtain ⟨lease, flying, -⟩ := renewClaim_eq_some extended
      exact backoff.write flying rfl
  | lands posting task => exact ⟨backoff.waiting, backoff.waited⟩
  | mark past verified marked =>
      obtain ⟨⟨lease, flying, -⟩, -⟩ := markDelivered_eq_some marked
      exact backoff.write flying rfl
  | @retry session now claim row past held scheduled =>
      obtain ⟨-, same⟩ := scheduleRetry_eq_some scheduled
      exact {
        waiting := fun due latest => by
          obtain rfl := Event.retried.inj (Option.some.inj latest)
          exact Or.inl ⟨same ▸ rfl, rfl⟩
        waited := backoff.waited_append [.retried row.dueAt] (by simp) }
  | block held blocked =>
      obtain ⟨⟨lease, flying, -⟩, -⟩ := block_eq_some blocked
      exact backoff.write flying rfl

end Backoff

/-! ## The identity of the task -/

structure Identified (state : State S) : Prop where
  identity : ∀ session claim lease, (state.sessions session).claim = some claim →
    state.row.state = .inFlight lease → lease.token = claim.claimToken →
      state.row.odooTaskId = claim.taskId
  known : ∀ session claim, (state.sessions session).claim = some claim →
    ∀ taskId, claim.taskId = some taskId → state.row.odooTaskId = some taskId
  untold : ∀ session claim snapshot, (state.sessions session = .creating claim snapshot ∨
    state.sessions session = .created claim snapshot) → claim.taskId = none
  noted : ∀ note ∈ state.notes, state.row.odooTaskId = some note.1

omit [DecidableEq S] in
theorem identified_initial (behavior : Behavior) (hasBeforeImage : Bool) (now : ℤ) :
    Identified (State.initial S behavior hasBeforeImage now) := by
  constructor <;> simp [State.initial, Phase.claim]

omit [DecidableEq S] in
theorem Moves.untold {phase later : Phase} {events : List (Event S)} {claim : TaskDeliveryClaim}
    {snapshot : Snapshot} (moves : Moves state phase later events)
    (making : later = .creating claim snapshot ∨ later = .created claim snapshot) :
    phase = .creating claim snapshot := by
  cases moves with
  | created =>
      rcases making with impossible | same
      · cases impossible
      · obtain ⟨rfl, rfl⟩ := Phase.created.inj same
        rfl
  | agrees | updated =>
      unfold afterFields at making
      split at making <;> rcases making with impossible | impossible <;> cases impossible
  | _ => rcases making with impossible | impossible <;> cases impossible

namespace Identified

omit [DecidableEq S] in
theorem frame (identified : Identified state) (row : next.row = state.row)
    (sessions : next.sessions = state.sessions) (notes : next.notes = state.notes) :
    Identified next where
  identity := by
    rw [sessions, row]
    exact identified.identity
  known := by
    rw [sessions, row]
    exact identified.known
  untold := by
    rw [sessions]
    exact identified.untold
  noted := by
    rw [notes, row]
    exact identified.noted

omit [DecidableEq S] in
theorem changeRow (identified : Identified state) {row : DeliveryRow}
    (kept : ∀ lease, row.state = .inFlight lease → state.row.state = .inFlight lease)
    (task : row.odooTaskId = state.row.odooTaskId) : Identified { state with row := row } where
  identity session claim lease held flying token :=
    task.trans (identified.identity session claim lease held (kept lease flying) token)
  known session claim held taskId told :=
    task.trans (identified.known session claim held taskId told)
  untold := identified.untold
  noted note member := task.trans (identified.noted note member)

/-- A session that moves keeps its claim. -/
theorem move (identified : Identified state) (session : S) (phase : Phase)
    (kept : phase.claim = (state.sessions session).claim)
    (untold : ∀ claim snapshot, (phase = .creating claim snapshot ∨
      phase = .created claim snapshot) → claim.taskId = none) :
    Identified (state.become session phase) where
  identity := by
    intro other theirs lease held
    by_cases own : other = session
    · subst own
      rw [sessions_become_self, kept] at held
      exact identified.identity other theirs lease held
    · rw [sessions_become_of_ne own] at held
      exact identified.identity other theirs lease held
  known := by
    intro other theirs held
    by_cases own : other = session
    · subst own
      rw [sessions_become_self, kept] at held
      exact identified.known other theirs held
    · rw [sessions_become_of_ne own] at held
      exact identified.known other theirs held
  untold := by
    intro other claim snapshot making
    by_cases own : other = session
    · subst own
      rw [sessions_become_self] at making
      exact untold claim snapshot making
    · rw [sessions_become_of_ne own] at making
      exact identified.untold other claim snapshot making
  noted := identified.noted

/-- A statement of a session that forgets no task. -/
theorem write (identified : Identified state) (session : S) (phase : Phase) (row : DeliveryRow)
    (others : ∀ other theirs lease, other ≠ session → (state.sessions other).claim = some theirs →
      row.state = .inFlight lease → lease.token ≠ theirs.claimToken)
    (task : ∀ taskId, state.row.odooTaskId = some taskId → row.odooTaskId = some taskId)
    (saved : ∀ saved, phase.claim = some saved → row.odooTaskId = saved.taskId)
    (untold : ∀ claim snapshot, (phase = .creating claim snapshot ∨
      phase = .created claim snapshot) → claim.taskId = none) :
    Identified { state.become session phase with row := row } where
  identity := by
    intro other theirs lease held flying token
    by_cases own : other = session
    · subst own
      rw [sessions_become_self] at held
      exact saved theirs held
    · rw [sessions_become_of_ne own] at held
      exact absurd token (others other theirs lease own held flying)
  known := by
    intro other theirs held taskId told
    change ((state.become session phase).sessions other).claim = _ at held
    by_cases own : other = session
    · subst own
      rw [sessions_become_self] at held
      exact (saved theirs held).trans told
    · rw [sessions_become_of_ne own] at held
      exact task taskId (identified.known other theirs held taskId told)
  untold := by
    intro other claim snapshot making
    by_cases own : other = session
    · subst own
      rw [sessions_become_self] at making
      exact untold claim snapshot making
    · rw [sessions_become_of_ne own] at making
      exact identified.untold other claim snapshot making
  noted note member := task note.1 (identified.noted note member)

end Identified

omit [DecidableEq S] in
/-- The lease of the session's own claim is nobody else's. -/
theorem Leased.foreign (leased : Leased state) {session : S} {claim : TaskDeliveryClaim}
    (held : (state.sessions session).claim = some claim) (row : DeliveryRow)
    (own : ∀ lease, row.state = .inFlight lease → lease.token = claim.claimToken) (other : S)
    (theirs : TaskDeliveryClaim) (lease : Lease) (different : other ≠ session)
    (also : (state.sessions other).claim = some theirs) (flies : row.state = .inFlight lease) :
    lease.token ≠ theirs.claimToken := by
  rw [own lease flies]
  exact leased.apart session other (Ne.symm different) claim theirs held also

theorem Identified.step (identified : Identified state) (leased : Leased state)
    (taken : TaskWorker.step state action = some next) : Identified next := by
  cases step_outcome taken with
  | tick later => exact identified.frame rfl rfl rfl
  | transition past moved queued =>
      obtain ⟨-, -, -, task, -, flying⟩ := enqueueLifecycle_eq_some queued
      exact (identified.changeRow (fun lease => (flying lease).mp) task).frame rfl rfl rfl
  | adopt moved adopted =>
      obtain ⟨-, after, -, -, -, task⟩ := adoptDelivery_eq_some adopted
      exact (identified.changeRow (fun lease flies => by rw [after] at flies; cases flies)
        task).frame rfl rfl rfl
  | queue queued =>
      obtain ⟨-, pending, -, -, -, -, -, task⟩ := queueExistingLifecycleMismatches_eq_some queued
      exact (identified.changeRow (fun lease flies => by rw [pending] at flies; cases flies)
        task).frame rfl rfl rfl
  | @claim session owner now claim row past idle claimed =>
      obtain ⟨-, same, saved⟩ := claimDue_eq_some claimed
      have written := identified.write session (.claimed claim) row
        (by
          intro other theirs lease _ held flies
          rw [same] at flies
          obtain rfl := DeliveryState.inFlight.inj flies
          exact Nat.ne_of_gt (leased.fresh other theirs held))
        (fun taskId told => same ▸ told)
        (by
          rintro _ ⟨⟩
          rw [saved]
          rfl)
        (by simp)
      exact written.frame rfl rfl rfl
  | @move _ session phase events moves =>
      have moved := identified.move session phase moves.claim fun claim snapshot making =>
        identified.untold session claim snapshot (Or.inl (moves.untold making))
      exact moved.frame rfl rfl rfl
  | @recordTask session claim saved snapshot taskId row finds recorded =>
      obtain ⟨lease, flying, token, task, same, rfl⟩ := recordTaskId_eq_some recorded
      have untold : claim.taskId = none := by
        generalize at_ : state.sessions session = phase at finds
        cases finds with
        | found untold => exact untold
        | created => exact identified.untold session claim snapshot (Or.inr at_)
      refine identified.write session _ row (leased.foreign finds.claim row fun other flies => ?_)
        (fun known told => ?_) (fun _ held => ?_) (by simp)
      · rw [same] at flies
        exact DeliveryState.inFlight.inj (flying.symm.trans flies) ▸ token
      · exact absurd (told.symm.trans (task.trans untold)) nofun
      · exact Option.some.inj held ▸ rfl
  | @recordAttachment session claim saved snapshot attachmentId row attaches recorded =>
      obtain ⟨lease, flying, token, -, same, rfl⟩ := recordBeforeAttachment_eq_some recorded
      refine identified.write session _ row (leased.foreign attaches.claim row fun other flies => ?_)
        (fun _ told => same ▸ told) (fun _ held => Option.some.inj held ▸ rfl) (by simp)
      rw [same] at flies
      exact DeliveryState.inFlight.inj (flying.symm.trans flies) ▸ token
  | @renew session now claim renewed phase row past renews extended =>
      obtain ⟨lease, flying, token, -, same, rfl⟩ := renewClaim_eq_some extended
      have task : row.odooTaskId = state.row.odooTaskId := same ▸ rfl
      refine identified.write session _ row
        (leased.foreign renews.claim.1 row fun other flies => ?_) (fun _ told => task.trans told)
        (fun saved held => ?_) (fun making snapshot new => ?_)
      · rw [same] at flies
        exact DeliveryState.inFlight.inj flies ▸ token
      · rw [renews.claim.2] at held
        exact Option.some.inj held ▸ rfl
      · have before := identified.identity session claim lease renews.claim.1 flying token
        generalize state.sessions session = at_ at renews
        cases renews with
        | creating untold =>
            rcases new with new | impossible
            · obtain ⟨rfl, -⟩ := Phase.creating.inj new
              exact task.trans (before.trans untold)
            · cases impossible
        | _ => rcases new with impossible | impossible <;> cases impossible
  | @lands session claim snapshot stageId taskId posting task =>
      have held : (state.sessions session).claim = some claim := by
        rw [posting]
        rfl
      have moved := identified.move session (.posting claim snapshot stageId true) held.symm
        (by simp)
      exact {
        identity := moved.identity
        known := moved.known
        untold := moved.untold
        noted := by
          intro note member
          rcases List.mem_cons.mp member with rfl | old
          · exact identified.known session claim held taskId task
          · exact identified.noted note old }
  | @mark session now claim snapshot row past verified marked =>
      obtain ⟨-, -, -, -, -, task, settled, -⟩ := markDelivered_eq_some marked
      refine identified.write session .idle row (fun other theirs lease _ _ flies => ?_)
        (fun _ told => task.trans told) nofun (by simp)
      rcases settled with ⟨settled, -⟩ | settled <;> rw [settled] at flies <;> cases flies
  | @retry session now claim row past held scheduled =>
      obtain ⟨-, same⟩ := scheduleRetry_eq_some scheduled
      have moved := identified.write session .idle row
        (fun _ _ _ _ _ flies => by rw [same] at flies; cases flies)
        (fun _ told => same ▸ told) nofun (by simp)
      exact moved.frame rfl rfl rfl
  | @block session reason claim row held blocked =>
      obtain ⟨-, same⟩ := block_eq_some blocked
      exact identified.write session .idle row
        (fun _ _ _ _ _ flies => by rw [same] at flies; cases flies)
        (fun _ told => same ▸ told) nofun (by simp)

/-! ## Calls and result notes -/

structure Written (state : State S) : Prop where
  running : ∀ session claim, (state.sessions session).Calling →
    (state.sessions session).claim = some claim → state.clock < claim.expiresAt
  once : ∀ version, (state.notes.map Prod.snd).count version ≤ 1
  /-- A session that found no note, and still has the row, is the only one to post it. -/
  missing : ∀ session claim snapshot stageId lease,
    state.sessions session = .noteMissing claim snapshot stageId →
    state.row.state = .inFlight lease → lease.token = claim.claimToken →
      (state.notes.map Prod.snd).count snapshot.projectionVersion = 0
  unlanded : ∀ session claim snapshot stageId,
    state.sessions session = .posting claim snapshot stageId false →
      (state.notes.map Prod.snd).count snapshot.projectionVersion = 0

omit [DecidableEq S] in
theorem written_initial (behavior : Behavior) (hasBeforeImage : Bool) (now : ℤ) :
    Written (State.initial S behavior hasBeforeImage now) := by
  constructor <;> simp [State.initial, Phase.claim]

omit [DecidableEq S] in
theorem Phase.exists_claim {phase : Phase} (calling : phase.Calling) :
    ∃ claim, phase.claim = some claim := by
  cases phase <;> first
    | exact ⟨_, rfl⟩
    | exact absurd calling id

namespace Written

omit [DecidableEq S] in
/-- Two sessions with a running call both hold the row. -/
theorem writers (written : Written state) (leased : Leased state) {first second : S}
    (calling : (state.sessions first).Calling) (also : (state.sessions second).Calling) :
    first = second := by
  obtain ⟨mine, held⟩ := Phase.exists_claim calling
  obtain ⟨theirs, holds⟩ := Phase.exists_claim also
  by_contra different
  obtain ⟨lease, flying, token⟩ :=
    leased.lasting first mine held (written.running first mine calling held)
  obtain ⟨other, flies, theirToken⟩ :=
    leased.lasting second theirs holds (written.running second theirs also holds)
  obtain rfl := DeliveryState.inFlight.inj (flying.symm.trans flies)
  exact leased.apart first second different mine theirs held holds (token.symm.trans theirToken)

omit [DecidableEq S] in
/-- A session that has the row and finds no note on its task finds none of the version. -/
theorem count_of_found (identified : Identified state) {session : S} {claim : TaskDeliveryClaim}
    {snapshot : Snapshot} {lease : Lease} (held : (state.sessions session).claim = some claim)
    (flying : state.row.state = .inFlight lease) (token : lease.token = claim.claimToken)
    (found : state.found claim snapshot = 0) :
    (state.notes.map Prod.snd).count snapshot.projectionVersion = 0 := by
  have task := identified.identity session claim lease held flying token
  rw [List.count_eq_zero]
  intro member
  obtain ⟨note, posted, version⟩ := List.mem_map.mp member
  rw [State.found, List.countP_eq_zero] at found
  refine found note posted (decide_eq_true ⟨?_, version⟩)
  exact (identified.noted note posted).symm.trans task

omit [DecidableEq S] in
theorem frame (written : Written state) (clock : next.clock = state.clock)
    (row : next.row = state.row) (sessions : next.sessions = state.sessions)
    (notes : next.notes = state.notes) : Written next where
  running := by
    rw [sessions, clock]
    exact written.running
  once := by
    rw [notes]
    exact written.once
  missing := by
    rw [sessions, row, notes]
    exact written.missing
  unlanded := by
    rw [sessions, notes]
    exact written.unlanded

omit [DecidableEq S] in
theorem changeRow (written : Written state) {row : DeliveryRow}
    (kept : ∀ lease, row.state = .inFlight lease → state.row.state = .inFlight lease) :
    Written { state with row := row } where
  running := written.running
  once := written.once
  missing session claim snapshot stageId lease at_ flying :=
    written.missing session claim snapshot stageId lease at_ (kept lease flying)
  unlanded := written.unlanded

/-- A step of a session; nobody else gains the row. -/
theorem write (written : Written state) (session : S) (phase : Phase) (row : DeliveryRow)
    (others : ∀ other theirs lease, other ≠ session → (state.sessions other).claim = some theirs →
      row.state = .inFlight lease → lease.token = theirs.claimToken →
        ∃ before, state.row.state = .inFlight before ∧ before.token = theirs.claimToken)
    (running : phase.Calling → ∀ claim, phase.claim = some claim → state.clock < claim.expiresAt)
    (missing : ∀ claim snapshot stageId lease, phase = .noteMissing claim snapshot stageId →
      row.state = .inFlight lease → lease.token = claim.claimToken →
        (state.notes.map Prod.snd).count snapshot.projectionVersion = 0)
    (unlanded : ∀ claim snapshot stageId, phase = .posting claim snapshot stageId false →
      (state.notes.map Prod.snd).count snapshot.projectionVersion = 0) :
    Written { state.become session phase with row := row } where
  running := by
    intro other claim calling held
    by_cases own : other = session
    · subst own
      rw [sessions_become_self] at calling held
      exact running calling claim held
    · rw [sessions_become_of_ne own] at calling held
      exact written.running other claim calling held
  once := written.once
  missing := by
    intro other claim snapshot stageId lease at_ flying token
    by_cases own : other = session
    · subst own
      rw [sessions_become_self] at at_
      exact missing claim snapshot stageId lease at_ flying token
    · rw [sessions_become_of_ne own] at at_
      obtain ⟨before, flew, same⟩ := others other claim lease own (by rw [at_]; rfl) flying token
      exact written.missing other claim snapshot stageId before at_ flew same
  unlanded := by
    intro other claim snapshot stageId at_
    change (state.become session phase).sessions other = _ at at_
    by_cases own : other = session
    · subst own
      rw [sessions_become_self] at at_
      exact unlanded claim snapshot stageId at_
    · rw [sessions_become_of_ne own] at at_
      exact written.unlanded other claim snapshot stageId at_

/-- A step of a session into a phase without a call. -/
theorem pass (written : Written state) (session : S) (phase : Phase) (row : DeliveryRow)
    (others : ∀ other theirs lease, other ≠ session → (state.sessions other).claim = some theirs →
      row.state = .inFlight lease → lease.token = theirs.claimToken →
        ∃ before, state.row.state = .inFlight before ∧ before.token = theirs.claimToken)
    (calling : ¬phase.Calling)
    (missing : ∀ claim snapshot stageId, phase ≠ .noteMissing claim snapshot stageId) :
    Written { state.become session phase with row := row } :=
  written.write session phase row others (fun calls => absurd calls calling)
    (fun claim snapshot stageId _ at_ => absurd at_ (missing claim snapshot stageId))
    fun _ _ _ at_ => absurd (by rw [at_]; trivial) calling

end Written

omit [DecidableEq S] in
theorem Moves.noteMissing_found {phase later : Phase} {events : List (Event S)}
    {claim : TaskDeliveryClaim} {snapshot : Snapshot} {stageId : ℕ}
    (moves : Moves state phase later events) (missing : later = .noteMissing claim snapshot stageId) :
    state.found claim snapshot = 0 := by
  cases moves with
  | noteMissing none_ =>
      obtain ⟨rfl, rfl, rfl⟩ := Phase.noteMissing.inj missing
      exact none_
  | agrees | updated =>
      unfold afterFields at missing
      split at missing <;> cases missing
  | _ => cases missing

theorem Written.step (written : Written state) (leased : Leased state)
    (identified : Identified state) (ends : CallsEnd state action)
    (taken : TaskWorker.step state action = some next) : Written next := by
  cases step_outcome taken with
  | tick later =>
      exact {
        running := fun session claim calling held => ends.1 _ rfl session calling claim held
        once := written.once
        missing := written.missing
        unlanded := written.unlanded }
  | transition past moved queued =>
      obtain ⟨-, -, -, -, -, flying⟩ := enqueueLifecycle_eq_some queued
      exact (written.changeRow fun lease => (flying lease).mp).frame rfl rfl rfl rfl
  | adopt moved adopted =>
      obtain ⟨-, after, -⟩ := adoptDelivery_eq_some adopted
      exact (written.changeRow fun lease flies => by rw [after] at flies; cases flies).frame
        rfl rfl rfl rfl
  | queue queued =>
      obtain ⟨-, pending, -⟩ := queueExistingLifecycleMismatches_eq_some queued
      exact (written.changeRow fun lease flies => by rw [pending] at flies; cases flies).frame
        rfl rfl rfl rfl
  | @claim session owner now claim row past idle claimed =>
      obtain ⟨-, same, -⟩ := claimDue_eq_some claimed
      have claims := written.pass session (.claimed claim) row
        (fun other theirs lease _ held flies token => by
          rw [same] at flies
          obtain rfl := DeliveryState.inFlight.inj flies
          exact absurd token (Nat.ne_of_gt (leased.fresh other theirs held)))
        id (by simp)
      exact claims.frame rfl rfl rfl rfl
  | @move _ session phase events moves =>
      have moved := written.write session phase state.row
        (fun _ _ lease _ _ flies token => ⟨lease, flies, token⟩)
        (fun calling => absurd calling moves.not_calling)
        (fun claim snapshot stageId lease at_ flying token =>
          Written.count_of_found identified (by rw [← moves.claim, at_]; rfl) flying token
            (moves.noteMissing_found at_))
        (fun claim snapshot stageId at_ => absurd (by rw [at_]; trivial) moves.not_calling)
      exact moved.frame rfl rfl rfl rfl
  | @recordTask session claim saved snapshot taskId row finds recorded =>
      obtain ⟨before, flying, -, -, same, -⟩ := recordTaskId_eq_some recorded
      refine written.pass session _ row (fun _ _ lease _ _ flies token => ?_) id (by simp)
      rw [same] at flies
      exact ⟨lease, flies, token⟩
  | @recordAttachment session claim saved snapshot attachmentId row attaches recorded =>
      obtain ⟨before, flying, -, -, same, -⟩ := recordBeforeAttachment_eq_some recorded
      refine written.pass session _ row (fun _ _ lease _ _ flies token => ?_) id (by simp)
      rw [same] at flies
      exact ⟨lease, flies, token⟩
  | @renew session now claim renewed phase row past renews extended =>
      obtain ⟨lease, flying, own, -, same, rfl⟩ := renewClaim_eq_some extended
      refine written.write session _ row (fun _ _ other _ _ flies token => ?_) (fun _ saved held => ?_)
        (fun making snapshot stageId _ at_ => ?_) (fun making snapshot stageId at_ => ?_)
      · rw [same] at flies
        obtain rfl := DeliveryState.inFlight.inj flies
        exact ⟨lease, flying, token⟩
      · rw [renews.claim.2] at held
        exact Option.some.inj held ▸ ends.2 now rfl
      · generalize state.sessions session = before at renews
        cases renews <;> cases at_
      · generalize before : state.sessions session = at_phase at renews
        cases renews with
        | posting =>
            obtain ⟨-, rfl, rfl, -⟩ := Phase.posting.inj at_
            exact written.missing session claim _ _ lease before flying own
        | _ => cases at_
  | @lands session claim snapshot stageId taskId posting task =>
      have held : (state.sessions session).claim = some claim := by
        rw [posting]
        rfl
      have calling : (state.sessions session).Calling := by
        rw [posting]
        trivial
      obtain ⟨own, flying, token⟩ :=
        leased.lasting session claim held (written.running session claim calling held)
      have none_ := written.unlanded session claim snapshot stageId posting
      have moved := written.write session (.posting claim snapshot stageId true) state.row
        (fun _ _ lease _ _ flies token => ⟨lease, flies, token⟩)
        (fun _ _ same => Option.some.inj same ▸ written.running session claim calling held)
        (by simp) (by simp)
      exact {
        running := moved.running
        once := by
          intro version
          rw [List.map_cons, List.count_cons]
          by_cases same : snapshot.projectionVersion = version
          · rw [← same, none_]
            simp
          · simpa [same] using written.once version
        -- Nobody else has the row, and nobody else posts.
        missing := by
          intro other theirs wanted stage lease at_ flies theirToken
          by_cases same : other = session
          · subst same
            rw [sessions_become_self] at at_
            cases at_
          · rw [sessions_become_of_ne same] at at_
            obtain rfl := DeliveryState.inFlight.inj (flying.symm.trans flies)
            exact absurd (token.symm.trans theirToken)
              (leased.apart session other (Ne.symm same) claim theirs held (by rw [at_]; rfl))
        unlanded := by
          intro other theirs wanted stage at_
          change (state.become session _).sessions other = _ at at_
          by_cases same : other = session
          · subst same
            rw [sessions_become_self] at at_
            cases at_
          · rw [sessions_become_of_ne same] at at_
            exact absurd (written.writers leased (by rw [at_]; trivial) calling) same }
  | @mark session now claim snapshot row past verified marked =>
      obtain ⟨-, -, -, -, -, -, settled, -⟩ := markDelivered_eq_some marked
      refine written.pass session .idle row (fun _ _ lease _ _ flies => ?_) id (by simp)
      rcases settled with ⟨settled, -⟩ | settled <;> rw [settled] at flies <;> cases flies
  | @retry session now claim row past held scheduled =>
      obtain ⟨-, same⟩ := scheduleRetry_eq_some scheduled
      have released := written.pass session .idle row
        (fun _ _ _ _ _ flies => by rw [same] at flies; cases flies) id (by simp)
      exact released.frame rfl rfl rfl rfl
  | @block session reason claim row held blocked =>
      obtain ⟨-, same⟩ := block_eq_some blocked
      exact written.pass session .idle row
        (fun _ _ _ _ _ flies => by rw [same] at flies; cases flies) id (by simp)

/-! ## Exclusive claims -/

theorem Leased.of_reachable {initial : State S} (start : Leased initial)
    (reachable : Reachable initial TaskWorker.step Respects state) : Leased state :=
  reachable.invariant start fun _ _ _ leased respects taken => leased.step respects taken

/-- In a run whose reconciliations respect the leases and the retries, leases are exclusive and
retries wait; and as long as every call ends within its lease, writers are apart. -/
theorem taskDelivery_exclusive {behavior : Behavior} {hasBeforeImage : Bool} {now : ℤ} :
    (Reachable (State.initial S behavior hasBeforeImage now) step Respects state →
      Exclusive state) ∧
    (Reachable (State.initial S behavior hasBeforeImage now) step
      (fun state action => Respects state action ∧ CallsEnd state action) state → Apart state) := by
  constructor
  · intro reachable
    have leased := Leased.of_reachable (leased_initial behavior hasBeforeImage now) reachable
    have backoff : Backoff state :=
      reachable.invariant (backoff_initial behavior hasBeforeImage now)
        fun _ _ _ backoff respects taken => backoff.step respects taken
    refine ⟨fun session claim held lasts other owner at_ => ?_, backoff.waited⟩
    obtain ⟨lease, flying, token⟩ := leased.lasting session claim held lasts
    have expires := leased.current session claim lease held flying token
    rw [step, ite_eq_right_iff]
    rintro ⟨past, -⟩
    have early : claimDue at_ owner state.nextToken state.row = none := by
      refine if_neg fun due => ?_
      rw [flying] at due
      exact absurd (expires ▸ due.trans past) (not_le.mpr lasts)
    rw [early]
    rfl
  · intro reachable
    have kept : Leased state ∧ Identified state ∧ Written state := by
      refine @Reachable.invariant _ _ _ _ _
        (fun state : State S => Leased state ∧ Identified state ∧ Written state) ?_ ?_ _ reachable
      · exact ⟨leased_initial behavior hasBeforeImage now,
          identified_initial behavior hasBeforeImage now, written_initial behavior hasBeforeImage now⟩
      · rintro before action after ⟨leased, identified, written⟩ ⟨respects, ends⟩ taken
        exact ⟨leased.step respects taken, identified.step leased taken,
          written.step leased identified ends taken⟩
    obtain ⟨leased, -, written⟩ := kept
    exact ⟨fun _ _ => written.writers leased, written.once⟩

end Step

/-- A completed request is delivered with its result note, while the clock moves. -/
def deliverCompleted : List (Action Bool) :=
  [.transition ⟨.completed, "ana", "done", false⟩ 0, .claim false "web" 0, .load false,
    .renew false 0, .tick 1000000, .returns false true, .recordTask false 7, .passAttachment false,
    .check false, .readTask false 3 ⟨true, 1, "New", "01_in_progress"⟩, .renew false 1000000,
    .returns false true, .searchNote false, .renew false 1000000, .lands false, .tick 90000000,
    .returns false true, .verify false ⟨true, 3, "Done", "1_done"⟩]

theorem taskDelivery_exclusive_deliverCompleted : ∃ state : State Bool,
    (state.sessions false).claim.isSome ∧ state.notes = [(7, 2)] ∧ Exclusive state ∧
      Apart state := by
  have outcome : (run step (State.initial Bool .coding false 0) deliverCompleted).map
      (fun state => ((state.sessions false).claim.isSome, state.notes)) =
        some (true, [(7, 2)]) := by decide
  obtain ⟨state, ran, fields⟩ := Option.map_eq_some_iff.mp outcome
  obtain ⟨held, notes⟩ := Prod.mk.inj fields
  have respects : Permitted step Respects (State.initial Bool .coding false 0)
      deliverCompleted := by decide
  have both : Permitted step (fun state action => Respects state action ∧ CallsEnd state action)
      (State.initial Bool .coding false 0) deliverCompleted := by decide
  exact ⟨state, held, notes,
    taskDelivery_exclusive.1 (Reachable.initial.run_permitted respects ran),
    taskDelivery_exclusive.2 (Reachable.initial.run_permitted both ran)⟩

/-- Another worker begins its batch while the first delivers. -/
def queueOverDelivery : List (Action Bool) :=
  [.claim false "web" 0, .load false, .recordTask false 7, .queueExisting]

/-- In some run a second session may claim the row while the lease of the first lasts. -/
theorem taskDelivery_claimed_twice : ¬∀ state : State Bool,
    Reachable (State.initial Bool .coding false 0) step (fun _ _ => True) state →
      Exclusive state := by
  intro exclusive
  have outcome : (run step (State.initial Bool .coding false 0) queueOverDelivery).map
      (fun state => ((state.sessions false).claim.map TaskDeliveryClaim.expiresAt, state.clock,
        (step state (.claim true "worker" 0)).isSome)) = some (some claimLease, 0, true) := by decide
  obtain ⟨state, ran, fields⟩ := Option.map_eq_some_iff.mp outcome
  obtain ⟨held, rest⟩ := Prod.mk.inj fields
  obtain ⟨clock, claims⟩ := Prod.mk.inj rest
  obtain ⟨claim, held, expires⟩ := Option.map_eq_some_iff.mp held
  have reachable := Reachable.initial.run (fun _ _ _ => trivial) ran
  have refused := (exclusive state reachable).leased false claim held
    (by rw [clock, expires]; decide) true "worker" 0
  rw [refused] at claims
  cases claims

end PlantManager.Feedback.TaskWorker

import PlantManager.Feedback.SyncOutcome

/-! # The tokens of the outbox of Odoo improvements

Workers and reconcilers take the row under fresh tokens, so no two sessions share one
(`Feedback.Sync.Leased`).
-/

namespace PlantManager.Feedback.Sync

open PlantManager.Transition

variable {S : Type*}

/-- The lease of a review, and the state that the row had before it. -/
def Phase.borrowed : Phase → Option (Lease × SyncState)
  | .reviewing candidate => candidate.claimed
  | _ => none

/-- The token that a session writes with. -/
def Phase.token (phase : Phase) : Option ℕ :=
  (phase.claim.map fun claim => claim.lease.token) <|>
    phase.borrowed.map fun (lease, _) => lease.token

@[simp] theorem Phase.token_idle : Phase.idle.token = none := rfl

variable {phase later : Phase}

theorem Phase.token_of_claim {claim : Claim} (held : phase.claim = some claim) :
    phase.token = some claim.lease.token := by
  rw [Phase.token, held]
  rfl

theorem Phase.borrowed_of_claim {claim : Claim} (held : phase.claim = some claim) :
    phase.borrowed = none := by
  cases phase <;> first | rfl | cases held

theorem Phase.token_of_borrowed {lease : Lease} {prior : SyncState}
    (borrowed : phase.borrowed = some (lease, prior)) : phase.token = some lease.token := by
  cases phase with
  | reviewing candidate =>
      change (Option.map _ candidate.claimed) = _
      rw [show candidate.claimed = some (lease, prior) from borrowed]
      rfl
  | _ => cases borrowed

/-- A step that leaves the row alone keeps the claim of the session. -/
theorem Moves.claim {state : State S} {events : List (Event S)}
    (moves : Moves state phase later events) : later.claim = phase.claim := by
  cases moves <;> rfl

theorem Moves.borrowed {state : State S} {events : List (Event S)}
    (moves : Moves state phase later events) : phase.borrowed = none ∧ later.borrowed = none := by
  cases moves <;> exact ⟨rfl, rfl⟩

structure Leased (state : State S) : Prop where
  fresh : ∀ session token, (state.sessions session).token = some token → token < state.nextToken
  rowFresh : ∀ lease, state.store.row.state = .inFlight lease → lease.token < state.nextToken
  apart : ∀ first second token, (state.sessions first).token = some token →
    (state.sessions second).token = some token → first = second
  prior : ∀ session lease prior, (state.sessions session).borrowed = some (lease, prior) →
    prior = .idle ∨ prior = .quarantined

/-- The session has given up its token, or keeps it and what it borrowed. -/
def Phase.Narrows (later phase : Phase) : Prop :=
  later.token = none ∨ (later.token = phase.token ∧ later.borrowed = phase.borrowed)

theorem Phase.Narrows.token (narrows : later.Narrows phase) {token : ℕ}
    (held : later.token = some token) : phase.token = some token := by
  rcases narrows with none | ⟨same, -⟩
  · rw [none] at held
    cases held
  · exact same ▸ held

theorem Phase.Narrows.borrowed (narrows : later.Narrows phase) {lent : Lease × SyncState}
    (held : later.borrowed = some lent) : phase.borrowed = some lent := by
  rcases narrows with none | ⟨-, same⟩
  · have token := Phase.token_of_borrowed held
    rw [token] at none
    cases none
  · exact same ▸ held

theorem Phase.narrows_self (phase : Phase) : phase.Narrows phase := .inr ⟨rfl, rfl⟩

theorem Phase.narrows_idle (phase : Phase) : Phase.idle.Narrows phase := .inl rfl

/-- A worker's session that keeps its claim. -/
theorem Phase.narrows_of_claim {claim : Claim} (held : phase.claim = some claim)
    (kept : later.claim = some claim) : later.Narrows phase :=
  .inr ⟨(token_of_claim kept).trans (token_of_claim held).symm,
    (borrowed_of_claim kept).trans (borrowed_of_claim held).symm⟩

theorem Moves.narrows {state : State S} {events : List (Event S)}
    (moves : Moves state phase later events) : later.Narrows phase := by
  right
  rw [Phase.token, Phase.token, moves.claim, moves.borrowed.1, moves.borrowed.2]
  exact ⟨rfl, rfl⟩

theorem leased_initial (behavior : Behavior) (now : ℤ) :
    Leased (State.initial S behavior now) := by
  constructor <;>
    simp [State.initial, Phase.token, Phase.claim, Phase.borrowed, createRow]

section Step

variable [DecidableEq S] {state next : State S} {action : Action S}

@[simp] theorem sessions_become_self (session : S) (phase : Phase) :
    (state.become session phase).sessions session = phase := Function.update_self ..

theorem sessions_become_of_ne {session other : S} (different : other ≠ session) (phase : Phase) :
    (state.become session phase).sessions other = state.sessions other :=
  Function.update_of_ne different ..

theorem narrows_become {session : S} {phase : Phase}
    (narrows : phase.Narrows (state.sessions session)) (other : S) :
    ((state.become session phase).sessions other).Narrows (state.sessions other) := by
  by_cases own : other = session
  · subst own
    rwa [sessions_become_self]
  · rw [sessions_become_of_ne own]
    exact (state.sessions other).narrows_self

namespace Leased

omit [DecidableEq S] in
/-- Nobody takes the row. -/
theorem narrow (leased : Leased state) (nextToken : next.nextToken = state.nextToken)
    (sessions : ∀ session, (next.sessions session).Narrows (state.sessions session))
    (row : ∀ lease, next.store.row.state = .inFlight lease →
      state.store.row.state = .inFlight lease) : Leased next where
  fresh session token held := nextToken ▸ leased.fresh session token ((sessions session).token held)
  rowFresh lease flying := nextToken ▸ leased.rowFresh lease (row lease flying)
  apart first second token held other :=
    leased.apart first second token ((sessions first).token held) ((sessions second).token other)
  prior session lease prior borrowed :=
    leased.prior session lease prior ((sessions session).borrowed borrowed)

/-- A session takes the row under the next token. -/
theorem take (leased : Leased state) {session : S} {phase : Phase} {row : SyncRow} {lease : Lease}
    (token : phase.token = some state.nextToken)
    (prior : ∀ lent, phase.borrowed = some lent → lent.2 = .idle ∨ lent.2 = .quarantined)
    (flying : row.state = .inFlight lease) (own : lease.token = state.nextToken) :
    Leased { state.become session phase with
      store := { state.store with row := row }
      nextToken := state.nextToken + 1 } := by
  have others : ∀ other theirs, ((state.become session phase).sessions other).token = some theirs →
      theirs = state.nextToken ∧ other = session ∨
        theirs < state.nextToken ∧ (state.sessions other).token = some theirs := by
    intro other theirs held
    by_cases same : other = session
    · subst same
      rw [sessions_become_self, token] at held
      exact .inl ⟨(Option.some.inj held).symm, rfl⟩
    · rw [sessions_become_of_ne same] at held
      exact .inr ⟨leased.fresh other theirs held, held⟩
  constructor
  · intro other theirs held
    rcases others other theirs held with ⟨rfl, -⟩ | ⟨earlier, -⟩
    · exact Nat.lt_succ_self _
    · exact Nat.lt_succ_of_lt earlier
  · intro held flies
    obtain rfl := SyncState.inFlight.inj (flying.symm.trans flies)
    exact own ▸ Nat.lt_succ_self _
  · intro first second theirs held kept
    rcases others first theirs held with ⟨rfl, rfl⟩ | ⟨earlier, before⟩ <;>
      rcases others second _ kept with ⟨now, rfl⟩ | ⟨later, after⟩
    · rfl
    · exact absurd later (Nat.lt_irrefl _)
    · exact absurd (now ▸ earlier) (Nat.lt_irrefl _)
    · exact leased.apart first second theirs before after
  · intro other held before borrowed
    by_cases same : other = session
    · subst same
      rw [sessions_become_self] at borrowed
      exact prior (held, before) borrowed
    · rw [sessions_become_of_ne same] at borrowed
      exact leased.prior other held before borrowed

theorem step (leased : Leased state) (taken : step state action = some next) : Leased next := by
  cases step_outcome taken with
  | transition moved =>
      exact leased.narrow rfl (fun _ => Phase.narrows_self _) fun lease flies =>
        (enqueueTransition_state ..).symm.trans flies
  | claim idle claimed =>
      obtain ⟨-, rfl, rfl⟩ := claimDue_eq_some claimed
      exact (leased.take rfl (fun _ borrowed => by cases borrowed) rfl rfl).narrow rfl (fun _ => Phase.narrows_self _) fun _ => id
  | move moves => exact leased.narrow rfl (narrows_become moves.narrows) fun _ => id
  | lands => exact leased.narrow rfl (fun _ => Phase.narrows_self _) fun _ => id
  | release held holds idle keeps =>
      exact leased.narrow rfl (narrows_become (Phase.narrows_idle _)) fun lease flies => by
        rw [idle] at flies
        cases flies
  | prepare preparing prepared =>
      obtain ⟨-, -, rfl, rfl⟩ := prepareAttempt_eq_some prepared
      exact leased.narrow rfl
        (narrows_become (Phase.narrows_of_claim (by rw [preparing]; rfl) rfl)) fun _ => id
  | mark revalidated dispatched =>
      obtain ⟨locked, -, rfl, rfl⟩ := markDispatch_eq_some dispatched
      exact leased.narrow rfl
        (narrows_become (Phase.narrows_of_claim (by rw [revalidated]; rfl) rfl)) fun _ => id
  | succeed acknowledged recorded =>
      obtain ⟨locked, -, rfl, rfl⟩ := markRpcSucceeded_eq_some recorded
      exact leased.narrow rfl
        (narrows_become (Phase.narrows_of_claim (by rw [acknowledged]; rfl) rfl)) fun _ => id
  | settle read settled =>
      obtain ⟨locked, row, -, rfl, idle, -⟩ := settleVerified_eq_some settled
      exact leased.narrow rfl (narrows_become (Phase.narrows_idle _)) fun lease flies => by
        rw [show row.state = .inFlight lease from flies] at idle
        cases idle
  | @fail session errorClass now claim attempt store refused failed =>
      obtain ⟨locked, row, -, rfl, -, -, -, last, early⟩ := recordDefinitiveFailure_eq_some failed
      refine leased.narrow rfl (narrows_become (Phase.narrows_idle _)) fun lease flies => ?_
      rw [show row.state = .inFlight lease from flies] at last early
      by_cases late : maxMutationAttempts ≤ claim.attemptCount + 1
      · cases (last late).1
      · cases (early late).1
  | quarantine held carried stopped =>
      obtain ⟨-, quarantined, -⟩ := quarantine_eq_some stopped
      exact leased.narrow rfl (narrows_become (Phase.narrows_idle _)) fun lease flies => by
        rw [quarantined] at flies
        cases flies
  | recover recovered =>
      obtain ⟨-, -, -, -, ⟨idle, -⟩ | ⟨-, -, -, -, -, quarantined, -⟩⟩ :=
        recoverExpiredClaims_eq_some recovered
      · exact leased.narrow rfl (fun _ => Phase.narrows_self _) fun lease flies => by
          rw [idle] at flies
          cases flies
      · exact leased.narrow rfl (fun _ => Phase.narrows_self _) fun lease flies => by
          rw [quarantined] at flies
          cases flies
  | dispose disposed =>
      obtain ⟨-, -, -, ⟨-, -, rfl⟩ | ⟨-, -, same, -⟩ | ⟨-, -, same⟩⟩ :=
        applyQuarantineDisposition_eq_some disposed
      · exact leased.narrow rfl (fun _ => Phase.narrows_self _) fun _ => id
      · exact leased.narrow rfl (fun _ => Phase.narrows_self _) fun lease flies => by
          rw [same] at flies
          cases flies
      · exact leased.narrow rfl (fun _ => Phase.narrows_self _) fun lease flies => by
          rw [same] at flies
          cases flies
  | preAttemptRelease released =>
      obtain ⟨-, -, idle, -⟩ := releasePreAttemptQuarantine_eq_some released
      exact leased.narrow rfl (fun _ => Phase.narrows_self _) fun lease flies => by
        rw [idle] at flies
        cases flies
  | reviewClaim read borrowed =>
      obtain ⟨free, -, rfl, rfl⟩ := claimReviewCandidate_eq_some borrowed
      exact leased.take rfl (by rintro _ ⟨⟩; exact free) rfl rfl
  | reviewRelease reviewing released =>
      obtain ⟨-, lease, prior, claimed, rfl⟩ := releaseReviewCandidate_eq_some released
      refine leased.narrow rfl (narrows_become (Phase.narrows_idle _)) fun held flies => ?_
      rcases leased.prior _ lease prior (by rw [reviewing]; exact claimed) with rfl | rfl <;>
        cases flies
  | reviewAttention reviewing recorded =>
      obtain ⟨-, quarantined, -⟩ := recordReviewAttention_eq_some recorded
      exact leased.narrow rfl (narrows_become (Phase.narrows_idle _)) fun lease flies => by
        rw [quarantined] at flies
        cases flies
  | adopt reviewing moved adopted =>
      obtain ⟨-, idle, -⟩ := adoptSync_eq_some adopted
      exact leased.narrow rfl (narrows_become (Phase.narrows_idle _)) fun lease flies => by
        rw [idle] at flies
        cases flies

omit [DecidableEq S] in
/-- A worker that holds the row and a review that borrowed it are one session, so there is none. -/
theorem not_borrowed (leased : Leased state) {session other : S} {claim : Claim} {lease : Lease}
    {prior : SyncState} (held : (state.sessions session).claim = some claim)
    (holds : claim.Holds state.store.row)
    (borrowed : (state.sessions other).borrowed = some (lease, prior)) :
    state.store.row.state ≠ .inFlight lease := by
  intro flying
  obtain ⟨current, flies, token⟩ := holds.inFlight
  obtain rfl := SyncState.inFlight.inj (flying.symm.trans flies)
  obtain rfl := leased.apart session other lease.token
    (token ▸ Phase.token_of_claim held) (Phase.token_of_borrowed borrowed)
  rw [Phase.borrowed_of_claim held] at borrowed
  cases borrowed

end Leased

end Step

end PlantManager.Feedback.Sync

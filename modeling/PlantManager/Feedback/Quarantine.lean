import PlantManager.Feedback.SyncLease

/-! # Quarantine of an Odoo improvement

`Feedback.Sync.quarantine_sticky`: as long as no recovery finds the expired claim of
a review that was taken on a quarantined row, a quarantine stays until it is cleared.
`Feedback.Sync.quarantine_claimed_again` is a run in which such a review is abandoned
and a worker then claims the row.
-/

namespace PlantManager.Feedback.Sync

open PlantManager.Transition

variable {S : Type*}

/-- What stops the row and what frees it. -/
def Event.turns : Event S → Bool
  | .quarantined => true
  | .cleared => true
  | _ => false

/-- The row is quarantined, or lent to a review that gives it back quarantined. -/
def State.Stopped (state : State S) : Prop :=
  state.store.row.state = .quarantined ∨ ∃ session lease,
    (state.sessions session).borrowed = some (lease, .quarantined) ∧
      state.store.row.state = .inFlight lease

/-- A quarantine stays until it is cleared. -/
structure Sticky (state : State S) : Prop where
  /-- No worker claims the row in between. -/
  unclaimed : ∀ later session earlier, state.history = later ++ .claimed session :: earlier →
    earlier.find? Event.turns ≠ some .quarantined
  stopped : state.history.find? Event.turns = some .quarantined → state.Stopped

def Action.recovered : Action S → Option ℤ
  | .recover now => some now
  | _ => none

/-- No recovery finds the expired claim of a review that was taken on a quarantined row. -/
def SparesReviews (state : State S) (action : Action S) : Prop :=
  ∀ now ∈ action.recovered, ∀ session, ∀ lent ∈ (state.sessions session).borrowed,
    lent.2 = .quarantined → state.store.row.state = .inFlight lent.1 → now < lent.1.expiresAt

instance [Fintype S] (state : State S) (action : Action S) :
    Decidable (SparesReviews state action) :=
  inferInstanceAs (Decidable (∀ now ∈ action.recovered, _))

theorem sticky_initial (behavior : Behavior) (now : ℤ) :
    Sticky (State.initial S behavior now) := by
  constructor <;> simp [State.initial]

theorem Moves.not_turns {state : State S} {phase later : Phase} {events : List (Event S)}
    (moves : Moves state phase later events) :
    ∀ event ∈ events, event.turns = false ∧ ∀ session, event ≠ .claimed session := by
  cases moves <;> simp [Event.turns]

/-- Events that neither stop nor free the row. -/
theorem latest_append {events history : List (Event S)}
    (quiet : ∀ event ∈ events, event.turns = false) :
    (events ++ history).find? Event.turns = history.find? Event.turns := by
  rw [List.find?_append, List.find?_eq_none.mpr fun event member => by
    rw [quiet event member]
    exact Bool.false_ne_true, Option.none_or]

section Step

variable [DecidableEq S] {state next : State S} {action : Action S}

namespace Sticky

omit [DecidableEq S] in
theorem append (sticky : Sticky state) (events : List (Event S))
    (history : next.history = events ++ state.history)
    (unclaimed : ∀ event ∈ events, ∀ session, event ≠ .claimed session)
    (stopped : (events ++ state.history).find? Event.turns = some .quarantined → next.Stopped) :
    Sticky next where
  unclaimed := by
    intro later session earlier same
    obtain ⟨before, same⟩ := stands_of_append
      (fun event member => unclaimed event member session) (history.symm.trans same)
    exact sticky.unclaimed before session earlier same
  stopped latest := stopped (history ▸ latest)

omit [DecidableEq S] in
/-- A worker that holds the row knows that it is not stopped. -/
theorem not_latest (sticky : Sticky state) (leased : Leased state) {session : S} {claim : Claim}
    (held : (state.sessions session).claim = some claim) (holds : claim.Holds state.store.row) :
    state.history.find? Event.turns ≠ some .quarantined := by
  intro latest
  rcases sticky.stopped latest with quarantined | ⟨other, lease, borrowed, flying⟩
  · obtain ⟨lease, flying, -⟩ := holds.inFlight
    rw [quarantined] at flying
    cases flying
  · exact leased.not_borrowed held holds borrowed flying

end Sticky

omit [DecidableEq S] in
theorem State.Stopped.stays (stopped : state.Stopped)
    (row : next.store.row.state = state.store.row.state)
    (sessions : ∀ session lent, (state.sessions session).borrowed = some lent →
      (next.sessions session).borrowed = some lent) : next.Stopped := by
  rcases stopped with quarantined | ⟨session, lease, borrowed, flying⟩
  · exact .inl (row.trans quarantined)
  · exact .inr ⟨session, lease, sessions session _ borrowed, row.trans flying⟩

/-- A session that borrowed nothing moves. -/
theorem borrowed_become {session : S} (none : (state.sessions session).borrowed = none)
    (phase : Phase) (other : S) (lent : Lease × SyncState)
    (borrowed : (state.sessions other).borrowed = some lent) :
    ((state.become session phase).sessions other).borrowed = some lent := by
  by_cases own : other = session
  · subst own
    rw [none] at borrowed
    cases borrowed
  · rw [sessions_become_of_ne own]
    exact borrowed

namespace Sticky

/-- Whoever spares the reviews keeps every quarantine. -/
theorem step (sticky : Sticky state) (leased : Leased state) (spares : SparesReviews state action)
    (taken : step state action = some next) : Sticky next := by
  cases step_outcome taken with
  | transition moved =>
      exact sticky.append [] rfl (List.forall_mem_nil _) fun latest =>
        (sticky.stopped latest).stays (enqueueTransition_state ..) fun _ _ => id
  | claim idle claimed =>
      obtain ⟨due, rfl, rfl⟩ := claimDue_eq_some claimed
      have free : state.history.find? Event.turns ≠ some .quarantined := by
        intro latest
        rcases sticky.stopped latest with stopped | ⟨_, lease, -, stopped⟩ <;>
          rw [due.1] at stopped <;> cases stopped
      exact {
        unclaimed := by
          intro later session earlier same
          cases later with
          | nil =>
              obtain ⟨-, rfl⟩ := List.cons.inj same
              exact free
          | cons event later =>
              exact sticky.unclaimed later session earlier (List.cons.inj same).2
        stopped := fun latest => absurd latest free }
  | @move _ session phase events moves =>
      refine sticky.append events rfl (fun event member => (moves.not_turns event member).2) ?_
      intro latest
      rw [latest_append fun event member => (moves.not_turns event member).1] at latest
      exact (sticky.stopped latest).stays rfl (borrowed_become moves.borrowed.1 phase)
  | lands => exact ⟨sticky.unclaimed, sticky.stopped⟩
  | release held holds idle keeps =>
      exact sticky.append [] rfl (List.forall_mem_nil _) fun latest =>
        absurd latest (sticky.not_latest leased held holds)
  | prepare preparing prepared =>
      obtain ⟨locked, -, rfl, rfl⟩ := prepareAttempt_eq_some prepared
      exact sticky.append [] rfl (List.forall_mem_nil _) fun latest =>
        absurd latest (sticky.not_latest leased (by rw [preparing]; rfl) (.of_inFlight locked.1))
  | mark revalidated dispatched =>
      obtain ⟨locked, owned, rfl, rfl⟩ := markDispatch_eq_some dispatched
      exact sticky.append [.marked _] rfl (by simp) fun latest =>
        absurd latest (sticky.not_latest leased (by rw [revalidated]; rfl)
          (lockOwnedAttempt_eq_some owned).2.1)
  | succeed acknowledged recorded =>
      obtain ⟨locked, owned, rfl, rfl⟩ := markRpcSucceeded_eq_some recorded
      exact sticky.append [] rfl (List.forall_mem_nil _) fun latest =>
        absurd latest (sticky.not_latest leased (by rw [acknowledged]; rfl)
          (lockOwnedAttempt_eq_some owned).2.1)
  | settle read settled =>
      obtain ⟨locked, row, owned, rfl, -⟩ := settleVerified_eq_some settled
      exact sticky.append [] rfl (List.forall_mem_nil _) fun latest =>
        absurd latest (sticky.not_latest leased (by rw [read]; rfl)
          (lockOwnedAttempt_eq_some owned).2.1)
  | @fail session errorClass now claim attempt store refused failed =>
      obtain ⟨locked, row, owned, rfl, -, -, -, last, -⟩ := recordDefinitiveFailure_eq_some failed
      have held : (state.sessions session).claim = some claim := by
        rcases refused with at_ | at_ <;> rw [at_] <;> rfl
      refine sticky.append _ rfl (by split <;> simp) fun latest => ?_
      by_cases late : maxMutationAttempts ≤ claim.attemptCount + 1
      · exact .inl (last late).1
      · rw [if_neg late] at latest
        exact absurd latest (sticky.not_latest leased held (lockOwnedAttempt_eq_some owned).2.1)
  | quarantine held carried stopped =>
      obtain ⟨-, quarantined, -⟩ := quarantine_eq_some stopped
      exact sticky.append [.quarantined] rfl (by simp) fun _ => .inl quarantined
  | @recover now store recovered =>
      obtain ⟨lease, flying, expired, -, ⟨idle, -, unmarked⟩ |
        ⟨attemptId, attempt, active, found, marked, quarantined, -⟩⟩ :=
          recoverExpiredClaims_eq_some recovered
      · have quiet : recoveryEvents (S := S) state.store = [] := by
          unfold recoveryEvents
          split
          · rfl
          · rename_i active
            exact if_neg (unmarked _ active)
        rw [quiet]
        refine sticky.append [] rfl (List.forall_mem_nil _) fun latest => ?_
        rcases sticky.stopped latest with stopped | ⟨session, lent, borrowed, flies⟩
        · rw [flying] at stopped
          cases stopped
        · obtain rfl := SyncState.inFlight.inj (flying.symm.trans flies)
          have lasts := spares now rfl session (lease, .quarantined) borrowed rfl flying
          exact absurd expired (not_le.mpr lasts)
      · refine sticky.append _ rfl ?_ fun _ => .inl quarantined
        unfold recoveryEvents
        split
        · nofun
        · split <;> simp
  | @dispose attemptId disposition confirmed now record store disposed =>
      obtain ⟨-, -, -, ⟨rfl, -, rfl⟩ | ⟨rfl, -⟩ | ⟨rfl, -⟩⟩ :=
        applyQuarantineDisposition_eq_some disposed
      · exact sticky.append [] rfl (List.forall_mem_nil _) fun latest =>
          (sticky.stopped latest).stays rfl fun _ _ => id
      · exact sticky.append [.cleared] rfl (by simp) nofun
      · exact sticky.append [.cleared, .superseded attemptId] rfl (by simp) nofun
  | preAttemptRelease released =>
      exact sticky.append [.cleared] rfl (by simp) nofun
  | @reviewClaim session owner expiresAt now candidate claimed row read borrowed =>
      obtain ⟨free, -, rfl, rfl⟩ := claimReviewCandidate_eq_some borrowed
      refine sticky.append [] rfl (List.forall_mem_nil _) fun latest => ?_
      have quarantined : state.store.row.state = .quarantined := by
        rcases sticky.stopped latest with stopped | ⟨_, lease, -, stopped⟩
        · exact stopped
        · rcases free with free | free <;> rw [free] at stopped <;> cases stopped
      refine .inr ⟨session, _, ?_, rfl⟩
      rw [sessions_become_self, ← quarantined]
      rfl
  | @reviewRelease session candidate row reviewing released =>
      obtain ⟨owns, lease, prior, claimed, rfl⟩ := releaseReviewCandidate_eq_some released
      refine sticky.append [] rfl (List.forall_mem_nil _) fun latest => ?_
      obtain ⟨held, flying, token⟩ := owns.inFlight claimed
      have mine : (state.sessions session).borrowed = some (lease, prior) := by
        rw [reviewing]
        exact claimed
      rcases sticky.stopped latest with stopped | ⟨other, lent, borrowed, flies⟩
      · rw [flying] at stopped
        cases stopped
      · obtain rfl := SyncState.inFlight.inj (flying.symm.trans flies)
        obtain rfl := leased.apart session other held.token
          (token ▸ Phase.token_of_borrowed mine) (Phase.token_of_borrowed borrowed)
        obtain ⟨-, rfl⟩ := Prod.mk.inj (Option.some.inj (mine.symm.trans borrowed))
        exact .inl rfl
  | reviewAttention reviewing recorded =>
      obtain ⟨-, quarantined, -⟩ := recordReviewAttention_eq_some recorded
      exact sticky.append [.quarantined] rfl (by simp) fun _ => .inl quarantined
  | adopt reviewing moved adopted =>
      exact sticky.append [.cleared, .adopted _ _] rfl (by simp) nofun

end Sticky

/-- In a run whose recoveries spare the reviews of quarantined rows, a quarantine stays until an
operator or a verified review clears it. -/
theorem quarantine_sticky {behavior : Behavior} {now : ℤ}
    (reachable : Reachable (State.initial S behavior now) Sync.step SparesReviews state) :
    Sticky state := by
  have kept : Leased state ∧ Sticky state := by
    refine @Reachable.invariant _ _ _ _ _
      (fun state : State S => Leased state ∧ Sticky state) ?_ ?_ _ reachable
    · exact ⟨leased_initial behavior now, sticky_initial behavior now⟩
    · rintro before action after ⟨leased, sticky⟩ spares taken
      exact ⟨leased.step taken, sticky.step leased spares taken⟩
  exact kept.2

end Step

/-- A row that has a record in Odoo is quarantined before its next attempt, and a reconciler
claims it. -/
def reviewQuarantined : List (Action Bool) :=
  [.claim false "worker" 0, .load false, .snapshot false, .identify false none [], .prepare false,
    .revalidate false none, .mark false, .send false, .lands 0, .acknowledge false 7,
    .succeed false, .quarantine false "readback_mismatch" 0,
    .dispose 0 .supersedeAndRetry true 0, .claim false "worker" 0, .load false,
    .quarantine false "target_identity_or_contract_mismatch" 0, .reviewRead true 3,
    .reviewClaim true "web" 300000000 0]

theorem quarantine_sticky_reviewQuarantined : ∃ state : State Bool,
    state.history.find? Event.turns = some .quarantined ∧ state.store.row.state = .quarantined ∧
      Sticky state := by
  have outcome : (run step (State.initial Bool .review 0)
      (reviewQuarantined ++ [.reviewRelease true])).map
        (fun state => (state.history.find? Event.turns, state.store.row.state)) =
          some (some .quarantined, .quarantined) := by decide
  obtain ⟨state, ran, fields⟩ := Option.map_eq_some_iff.mp outcome
  obtain ⟨latest, quarantined⟩ := Prod.mk.inj fields
  have spares : Permitted step SparesReviews (State.initial Bool .review 0)
      (reviewQuarantined ++ [.reviewRelease true]) := by decide
  exact ⟨state, latest, quarantined,
    quarantine_sticky (Reachable.initial.run_permitted spares ran)⟩

/-- In some run a worker claims the quarantined row, after the claim of a review on it expired. -/
theorem quarantine_claimed_again : ¬∀ state : State Bool,
    Reachable (State.initial Bool .review 0) step (fun _ _ => True) state → Sticky state := by
  intro sticky
  have outcome : (run step (State.initial Bool .review 0)
      (reviewQuarantined ++ [.recover 300000000, .claim false "worker" 300000000])).map
        (fun state => (state.history.head?, state.history.tail.find? Event.turns)) =
          some (some (.claimed false), some .quarantined) := by decide
  obtain ⟨state, ran, fields⟩ := Option.map_eq_some_iff.mp outcome
  obtain ⟨claimed, latest⟩ := Prod.mk.inj fields
  have same : state.history = [] ++ .claimed false :: state.history.tail :=
    (List.cons_head?_tail claimed).symm
  exact (sticky state (Reachable.initial.run (fun _ _ _ => trivial) ran)).unclaimed _ _ _ same
    latest

end PlantManager.Feedback.Sync

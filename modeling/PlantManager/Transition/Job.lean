import Mathlib

/-! # Jobs that can be cut off

A job works on a state. It returns a value, raises, or is cut off where it stands
(`Transition.Job`). The state keeps what was done in each of the three cases. Calls
to a service can fail before or after they take effect (`Transition.Job.call`).

`Ends` is the triple of a job, with a condition for each of the three ways it can end; `Ensures`
is the triple of a job for which raising and being cut off are the same. `Moves` relates the state
before to the state after, however the job ends.
-/

namespace PlantManager.Transition

/-- How a job ends. -/
inductive Ending (α : Type) where
  | returned (value : α)
  | raised
  | cut

def Job (σ α : Type) := σ → Ending α × σ

namespace Job

variable {σ α β : Type}

def bind (first : Job σ α) (next : α → Job σ β) : Job σ β := fun state =>
  match first state with
  | (.returned value, after) => next value after
  | (.raised, after) => (.raised, after)
  | (.cut, after) => (.cut, after)

instance : Monad (Job σ) where
  pure value := fun state => (.returned value, state)
  bind := bind

/-- Change the state. -/
def modify (change : σ → σ) : Job σ Unit := fun state => (.returned (), change state)

/-- Look at the state. -/
def read (look : σ → α) : Job σ α := fun state => (.returned (look state), state)

/-- Go on when a job raises. -/
def tried (job : Job σ α) : Job σ (Option α) := fun state =>
  match job state with
  | (.returned value, after) => (.returned (some value), after)
  | (.raised, after) => (.returned none, after)
  | (.cut, after) => (.cut, after)

/-- What becomes of a call: it answers, or it fails or is the last thing its job does, and then
it took effect or not. -/
inductive Verdict where
  | answers
  | fails (effect : Bool)
  | cuts (effect : Bool)
  deriving DecidableEq, Repr

/-- Where the next verdict comes from, and how a failure is recorded. -/
structure Channel (σ : Type) where
  take : σ → Verdict × σ
  failed : σ → σ

/-- The state after a call whose answer nobody got. -/
def lost {ε : Type} (channel : Channel σ) (service : σ → Except ε (α × σ)) (effect : Bool)
    (state : σ) : σ :=
  match effect, service (channel.failed state) with
  | true, .ok (_, after) => after
  | _, _ => channel.failed state

/-- Call a service. -/
def call {ε : Type} (channel : Channel σ) (service : σ → Except ε (α × σ)) : Job σ α := fun state =>
  match channel.take state with
  | (.answers, ready) =>
      match service ready with
      | .ok (value, after) => (.returned value, after)
      | .error _ => (.raised, channel.failed ready)
  | (.fails effect, ready) => (.raised, lost channel service effect ready)
  | (.cuts effect, ready) => (.cut, lost channel service effect ready)

variable {ε : Type} {first : Job σ α} {next : α → Job σ β} {later : Option α → σ → Prop}

theorem lost_cases (channel : Channel σ) (service : σ → Except ε (α × σ)) (effect : Bool)
    (state : σ) :
    lost channel service effect state = channel.failed state ∨
      ∃ value, service (channel.failed state) = .ok (value, lost channel service effect state) := by
  unfold lost
  cases effect with
  | false => exact .inl rfl
  | true =>
      cases served : service (channel.failed state) with
      | error _ => exact .inl rfl
      | ok answer => exact .inr ⟨answer.1, rfl⟩

/-! ## Triples -/

def Ends (before : σ → Prop) (job : Job σ α) (after : α → σ → Prop) (raises cuts : σ → Prop) :
    Prop :=
  ∀ state, before state →
    match job state with
    | (.returned value, last) => after value last
    | (.raised, last) => raises last
    | (.cut, last) => cuts last

def Ensures (before : σ → Prop) (job : Job σ α) (after : α → σ → Prop) (stopped : σ → Prop) :
    Prop := Ends before job after stopped stopped

variable {before middle stopped raises cuts : σ → Prop} {after : α → σ → Prop}

theorem Ends.pure {value : α} (holds : ∀ state, before state → after value state) :
    Ends before (Pure.pure value) after raises cuts :=
  holds

theorem Ends.read {look : σ → α} (holds : ∀ state, before state → after (look state) state) :
    Ends before (Job.read look) after raises cuts :=
  holds

theorem Ends.bind (between : α → σ → Prop) {later : β → σ → Prop}
    (head : Ends before first between raises cuts)
    (rest : ∀ value, Ends (between value) (next value) later raises cuts) :
    Ends before (first >>= next) later raises cuts := by
  intro state holds
  have done := head state holds
  change match Job.bind first next state with
    | (.returned value, last) => later value last
    | (.raised, last) => raises last
    | (.cut, last) => cuts last
  unfold Job.bind
  rcases ended : first state with ⟨_ | _ | _, reached⟩
  · rw [ended] at done
    exact rest _ reached done
  · rw [ended] at done
    exact done
  · rw [ended] at done
    exact done

variable {job : Job σ α} {channel : Channel σ}

theorem Ends.tried (body : Ends before job after middle cuts)
    (found : ∀ value state, after value state → later (some value) state)
    (missed : ∀ state, middle state → later none state) :
    Ends before (tried job) later raises cuts := by
  intro state holds
  have done := body state holds
  unfold Job.tried
  rcases ended : job state with ⟨_ | _ | _, reached⟩
  · rw [ended] at done
    exact found _ reached done
  · rw [ended] at done
    exact missed reached done
  · rw [ended] at done
    exact done

theorem Ends.weaken {earlier fails halts : σ → Prop} {later : α → σ → Prop}
    (body : Ends before job after raises cuts) (first : ∀ state, earlier state → before state)
    (last : ∀ value state, after value state → later value state)
    (raised : ∀ state, raises state → fails state) (stops : ∀ state, cuts state → halts state) :
    Ends earlier job later fails halts := by
  intro state holds
  have done := body state (first state holds)
  rcases ended : job state with ⟨_ | _ | _, reached⟩
  · rw [ended] at done
    exact last _ reached done
  · rw [ended] at done
    exact raised reached done
  · rw [ended] at done
    exact stops reached done

/-- A call keeps what taking its verdict keeps and what the service establishes. -/
theorem Ends.call {service : σ → Except ε (α × σ)}
    (taken : ∀ state, before state → before (channel.take state).2)
    (answered : ∀ state, before state → ∀ value last, service state = .ok (value, last) →
      after value last) (unheard : ∀ state, before state → ∀ value last,
      service (channel.failed state) = .ok (value, last) → raises last ∧ cuts last)
    (failed : ∀ state, before state → raises (channel.failed state) ∧ cuts (channel.failed state)) :
    Ends before (call channel service) after raises cuts := by
  intro state holds
  have ready := taken state holds
  have silent : ∀ effect, raises (lost channel service effect (channel.take state).2) ∧
      cuts (lost channel service effect (channel.take state).2) := by
    intro effect
    rcases lost_cases channel service effect (channel.take state).2 with same | ⟨value, served⟩
    · rw [same]
      exact failed _ ready
    · exact unheard _ ready value _ served
  unfold Job.call
  rcases taking : channel.take state with ⟨_ | effect | effect, reached⟩
  · rw [taking] at ready
    dsimp only
    cases served : service reached with
    | error _ => exact (failed _ ready).1
    | ok answer => exact answered _ ready answer.1 answer.2 served
  · rw [taking] at silent
    exact (silent effect).1
  · rw [taking] at silent
    exact (silent effect).2

/-- A call to a service whose failures have no effect. -/
theorem Ends.call_atomic {service : σ → Except ε (α × σ)}
    (atomic : ∀ state, (channel.take state).1 ≠ .fails true)
    (taken : ∀ state, before state → before (channel.take state).2)
    (answered : ∀ state, before state → ∀ value last, service state = .ok (value, last) →
      after value last) (unheard : ∀ state, before state → ∀ value last,
      service (channel.failed state) = .ok (value, last) → cuts last)
    (failed : ∀ state, before state → raises (channel.failed state) ∧ cuts (channel.failed state)) :
    Ends before (Job.call channel service) after raises cuts := by
  intro state holds
  have ready := taken state holds
  unfold Job.call
  have whole := atomic state
  rcases taking : channel.take state with ⟨_ | effect | effect, reached⟩
  · rw [taking] at ready
    dsimp only
    cases served : service reached with
    | error _ => exact (failed _ ready).1
    | ok answer => exact answered _ ready answer.1 answer.2 served
  · rw [taking] at ready whole
    cases effect with
    | false => exact (failed _ ready).1
    | true => exact absurd rfl whole
  · rw [taking] at ready
    change cuts (lost channel service effect reached)
    rcases lost_cases channel service effect reached with same | ⟨value, served⟩
    · rw [same]
      exact (failed _ ready).2
    · exact unheard _ ready value _ served

/-- What holds however a job ends holds in its last state. -/
theorem Ends.last {holds : σ → Prop} (ends : Ends before job (fun _ => holds) holds holds)
    {state : σ} (start : before state) : holds (job state).2 := by
  have done := ends state start
  rcases ended : job state with ⟨_ | _ | _, reached⟩
  all_goals
    rw [ended] at done
    exact done

theorem Ensures.pure {value : α} (holds : ∀ state, before state → after value state) :
    Ensures before (Pure.pure value) after stopped :=
  holds

theorem Ensures.bind (between : α → σ → Prop) {later : β → σ → Prop}
    (head : Ensures before first between stopped)
    (rest : ∀ value, Ensures (between value) (next value) later stopped) :
    Ensures before (first >>= next) later stopped :=
  Ends.bind between head rest

theorem Ensures.weaken {earlier halted : σ → Prop} {later : α → σ → Prop}
    (body : Ensures before job after stopped) (first : ∀ state, earlier state → before state)
    (last : ∀ value state, after value state → later value state)
    (stops : ∀ state, stopped state → halted state) : Ensures earlier job later halted :=
  Ends.weaken body first last stops stops

theorem Ensures.tried (body : Ensures before job after middle)
    (found : ∀ value state, after value state → later (some value) state)
    (missed : ∀ state, middle state → later none state)
    (stops : ∀ state, middle state → stopped state) : Ensures before (tried job) later stopped :=
  Ends.tried (Ends.weaken body (fun _ => id) (fun _ _ => id) (fun _ => id) stops) found missed

theorem Ensures.call {service : σ → Except ε (α × σ)}
    (taken : ∀ state, before state → before (channel.take state).2)
    (answered : ∀ state, before state → ∀ value last, service state = .ok (value, last) →
      after value last) (unheard : ∀ state, before state → ∀ value last,
      service (channel.failed state) = .ok (value, last) → stopped last)
    (failed : ∀ state, before state → stopped (channel.failed state)) :
    Ensures before (call channel service) after stopped :=
  Ends.call taken answered
    (fun state holds value last served =>
      ⟨unheard state holds value last served, unheard state holds value last served⟩)
    fun state holds => ⟨failed state holds, failed state holds⟩

/-! ## Moves -/

def Moves (relation : σ → σ → Prop) (job : Job σ α) : Prop :=
  ∀ state, relation state (job state).2

variable {relation : σ → σ → Prop}

theorem Moves.pure (refl : ∀ state, relation state state) (value : α) :
    Moves relation (Pure.pure value : Job σ α) :=
  refl

theorem Moves.bind
    (trans : ∀ one two three, relation one two → relation two three → relation one three)
    (head : Moves relation first) (rest : ∀ value, Moves relation (next value)) :
    Moves relation (first >>= next) := by
  intro state
  have done := head state
  change relation state (Job.bind first next state).2
  unfold Job.bind
  rcases ended : first state with ⟨_ | _ | _, reached⟩
  · rw [ended] at done
    exact trans _ _ _ done (rest _ reached)
  · rw [ended] at done
    exact done
  · rw [ended] at done
    exact done

theorem Moves.tried (body : Moves relation job) : Moves relation (tried job) := by
  intro state
  have done := body state
  unfold Job.tried
  rcases ended : job state with ⟨_ | _ | _, reached⟩
  all_goals
    rw [ended] at done
    exact done

theorem Moves.call {service : σ → Except ε (α × σ)}
    (trans : ∀ one two three, relation one two → relation two three → relation one three)
    (taken : ∀ state, relation state (channel.take state).2)
    (failed : ∀ state, relation state (channel.failed state))
    (served : ∀ state value last, service state = .ok (value, last) → relation state last) :
    Moves relation (call channel service) := by
  intro state
  have start := taken state
  have silent : ∀ effect,
      relation state (lost channel service effect (channel.take state).2) := by
    intro effect
    have stops := trans _ _ _ start (failed (channel.take state).2)
    rcases lost_cases channel service effect (channel.take state).2 with same | ⟨value, done⟩
    · rw [same]
      exact stops
    · exact trans _ _ _ stops (served _ value _ done)
  unfold Job.call
  rcases taking : channel.take state with ⟨_ | effect | effect, reached⟩
  · rw [taking] at start
    dsimp only
    cases done : service reached with
    | error _ => exact trans _ _ _ start (failed reached)
    | ok answer => exact trans _ _ _ start (served reached answer.1 answer.2 done)
  · rw [taking] at silent
    exact silent effect
  · rw [taking] at silent
    exact silent effect

/-- What the moves of a job keep can be carried along its triple. -/
theorem Ensures.keeping (body : Ensures before job after stopped) (moves : Moves relation job)
    (kept : σ → Prop) (keeps : ∀ {first last}, kept first → relation first last → kept last) :
    Ensures (fun state => before state ∧ kept state) job
      (fun value state => after value state ∧ kept state)
      (fun state => stopped state ∧ kept state) := by
  intro state holds
  have done := body state holds.1
  have carried := keeps holds.2 (moves state)
  rcases ended : job state with ⟨_ | _ | _, reached⟩
  all_goals
    rw [ended] at done carried
    exact ⟨done, carried⟩

end Job

end PlantManager.Transition

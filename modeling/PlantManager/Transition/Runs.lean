import Mathlib

/-! # Runs of a transition system

A step function says where an action leads, if it can be taken. What holds at the start and
is kept by every step holds in every state a run reaches
(`Transition.Reachable.invariant`).
-/

namespace PlantManager.Transition

variable {σ α : Type*}

/-- The states that runs of allowed steps reach. -/
inductive Reachable (initial : σ) (step : σ → α → Option σ) (allowed : σ → α → Prop) : σ → Prop
  | initial : Reachable initial step allowed initial
  | step {state next : σ} {action : α} (before : Reachable initial step allowed state)
      (permitted : allowed state action) (taken : step state action = some next) :
      Reachable initial step allowed next

variable {initial : σ} {step : σ → α → Option σ} {allowed : σ → α → Prop}

theorem Reachable.invariant {holds : σ → Prop} (start : holds initial)
    (kept : ∀ state action next, holds state → allowed state action →
      step state action = some next → holds next) {state : σ}
    (reachable : Reachable initial step allowed state) : holds state := by
  induction reachable with
  | initial => exact start
  | step _ permitted taken ih => exact kept _ _ _ ih permitted taken

/-- Take some actions in order. -/
def run (step : σ → α → Option σ) : σ → List α → Option σ
  | state, [] => some state
  | state, action :: rest => (step state action).bind fun next => run step next rest

theorem Reachable.run {actions : List α} {state last : σ}
    (reachable : Reachable initial step allowed state)
    (permitted : ∀ action ∈ actions, ∀ state, allowed state action)
    (ran : run step state actions = some last) : Reachable initial step allowed last := by
  induction actions generalizing state with
  | nil => exact Option.some.inj ran ▸ reachable
  | cons action rest ih =>
      obtain ⟨next, taken, later⟩ := Option.bind_eq_some_iff.mp ran
      exact ih (reachable.step (permitted action List.mem_cons_self state) taken)
        (fun other member => permitted other (List.mem_cons_of_mem _ member)) later

/-- Take the actions that can be taken, in order. -/
def after (step : σ → α → Option σ) (actions : List α) (state : σ) : σ :=
  actions.foldl (fun state action => (step state action).getD state) state

theorem Reachable.after {actions : List α}
    (permitted : ∀ action ∈ actions, ∀ state, allowed state action) {state : σ}
    (reachable : Reachable initial step allowed state) :
    Reachable initial step allowed (after step actions state) := by
  induction actions generalizing state with
  | nil => exact reachable
  | cons action rest ih =>
      refine ih (fun other member => permitted other (List.mem_cons_of_mem _ member)) ?_
      change Reachable initial step allowed ((step state action).getD state)
      cases taken : step state action with
      | none => exact reachable
      | some next => exact reachable.step (permitted action List.mem_cons_self state) taken

/-- Each of the actions is allowed where it is taken. -/
def Permitted (step : σ → α → Option σ) (allowed : σ → α → Prop) : σ → List α → Prop
  | _, [] => True
  | state, action :: rest =>
      allowed state action ∧ ∀ next ∈ step state action, Permitted step allowed next rest

instance Permitted.decidable [∀ state action, Decidable (allowed state action)] :
    ∀ state actions, Decidable (Permitted step allowed state actions)
  | _, [] => isTrue trivial
  | state, action :: rest =>
      haveI : DecidablePred fun next => Permitted step allowed next rest :=
        fun next => Permitted.decidable next rest
      inferInstanceAs (Decidable (allowed state action ∧
        ∀ next ∈ step state action, Permitted step allowed next rest))

theorem Permitted.of_append {before later : List α} {state reached : σ}
    (permitted : Permitted step allowed state (before ++ later))
    (ran : Transition.run step state before = some reached) :
    Permitted step allowed reached later := by
  induction before generalizing state with
  | nil => exact Option.some.inj ran ▸ permitted
  | cons action rest ih =>
      obtain ⟨next, taken, ran⟩ := Option.bind_eq_some_iff.mp ran
      exact ih (permitted.2 next taken) ran

theorem Reachable.run_permitted {actions : List α} {state last : σ}
    (reachable : Reachable initial step allowed state)
    (permitted : Permitted step allowed state actions)
    (ran : Transition.run step state actions = some last) : Reachable initial step allowed last := by
  induction actions generalizing state with
  | nil => exact Option.some.inj ran ▸ reachable
  | cons action rest ih =>
      obtain ⟨next, taken, later⟩ := Option.bind_eq_some_iff.mp ran
      exact ih (reachable.step permitted.1 taken) (permitted.2 next taken) later

/-- Each event of a history follows from the events before it. -/
def Lawful {ε : Type*} (follows : List ε → ε → Prop) : List ε → Prop
  | [] => True
  | event :: past => follows past event ∧ Lawful follows past

theorem Lawful.follows {ε : Type*} {follows : List ε → ε → Prop} {history later past : List ε}
    {event : ε} (lawful : Lawful follows history) (same : history = later ++ event :: past) :
    follows past event := by
  induction later generalizing history with
  | nil =>
      subst same
      exact lawful.1
  | cons first later ih =>
      subst same
      exact ih lawful.2 rfl

/-- Where an event stands in a history that other events were added to. -/
theorem stands_of_append {ε : Type*} {events history later earlier : List ε} {event : ε}
    (others : ∀ other ∈ events, other ≠ event)
    (same : events ++ history = later ++ event :: earlier) :
    ∃ before, history = before ++ event :: earlier := by
  rcases List.append_eq_append_iff.mp same with ⟨between, rfl, rest⟩ | ⟨between, rfl, rest⟩
  · exact ⟨between, rest⟩
  · cases between with
    | nil => exact ⟨[], rest.symm⟩
    | cons first between =>
        obtain ⟨rfl, -⟩ := List.cons.inj rest
        exact absurd rfl (others _ (List.mem_append_right _ List.mem_cons_self))

end PlantManager.Transition

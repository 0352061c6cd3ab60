import PlantManager.Skills.SkillLevels

/-! # Levels that are kept

A sync that fetched before a push takes the pushed level back when it writes, and a promotion lowers
the level of Odoo when the row is behind (`Skills.level_reverted`). In runs without such
steps (`Skills.Apart`) each level is kept (`Skills.levels_kept`).
-/

namespace PlantManager.Skills

open Transition

variable {skill : Skill}

/-- What a step is to keep: a sync takes back no level that was pushed after its fetch, and leaves
the level that it fetched unless the row is dirty; a promotion does not lower the level of Odoo. -/
def Kept (skill : Skill) (state : State) (action : Action) (next : State) : Prop :=
  match action with
  | .rewrite sync => ∀ fetch, state.syncs sync = some fetch →
      (∀ write ∈ state.returned, fetch.pushes ≤ write.1 →
        levelOf next.row = levelOf state.row ∨ levelOf next.row = write.2) ∧
      ((∀ row ∈ state.row, row.localDirty = false) →
        levelOf next.row = skill.given fetch.line)
  | .push => state.writer = some .promoting → skill.given state.line ≤ skill.given next.line
  | _ => True

/-- A sync writes only if no level was pushed since its fetch or the row has what it fetched; a
promotion that finds no level in the row finds none above one in Odoo either, and nobody sets one
there until it is pushed. -/
def Apart (skill : Skill) (state : State) : Action → Prop
  | .rewrite sync => ∀ fetch, state.syncs sync = some fetch →
      fetch.pushes = state.pushes ∨ skill.given fetch.line = levelOf state.row
  | .decide => levelOf state.row = 0 → skill.given state.line ≤ 1
  | .edit line => state.writer = some .promoting → skill.given line ≤ 1
  | _ => True

/-! ## Levels -/

theorem Skill.bucketOf_levelForBucket {bucket levelId : ℤ}
    (found : skill.levelForBucket bucket = some levelId) : skill.bucketOf levelId = bucket := by
  have member := List.mem_of_getLast? found
  exact of_decide_eq_true (List.mem_filter.mp member).2

theorem bucketForLevelCount_nonneg (rank count : ℕ) : 0 ≤ bucketForLevelCount rank count := by
  unfold bucketForLevelCount
  split
  · exact le_rfl
  · exact le_max_left _ _

theorem Skill.given_nonneg (line : Option ℤ) : 0 ≤ skill.given line := by
  unfold Skill.given
  split
  · exact le_rfl
  · split
    · decide
    · unfold Skill.bucketOf
      split
      · exact bucketForLevelCount_nonneg _ _
      · exact le_rfl

variable {line : Option ℤ} {state : State}

theorem Skill.given_setEmployeeSkillLevel {bucket : ℤ}
    (pushed : skill.setEmployeeSkillLevel bucket = .ok line) : bucket ≤ skill.given line := by
  unfold Skill.setEmployeeSkillLevel at pushed
  split at pushed
  · cases pushed
  next known =>
  split at pushed
  · next zero =>
      cases pushed
      exact zero.le
  split at pushed
  · cases pushed
  · next found =>
      cases pushed
      unfold Skill.given
      dsimp only
      split
      · simp only [List.mem_cons, List.not_mem_nil, or_false, not_not] at known
        omega
      · exact (Skill.bucketOf_levelForBucket found).ge

/-- A sync leaves the level of a row that is clean as it was fetched. -/
theorem Skill.levelOf_refresh {row : Option SkillRow}
    (clean : ∀ row' ∈ row, row'.localDirty = false) :
    levelOf (skill.refresh line row) = skill.given line := by
  have left : row.filter SkillRow.localDirty = none := by
    cases row with
    | none => rfl
    | some row => rw [Option.filter_some, clean row rfl]; rfl
  unfold Skill.refresh
  rw [left]
  cases line with
  | none => rfl
  | some levelId =>
      dsimp only
      split
      · next low => exact le_antisymm (Skill.given_nonneg _) low
      · rfl

/-- A sync that fetched the level of the row leaves it. -/
theorem Skill.levelOf_refresh_same {row : Option SkillRow} (same : skill.given line = levelOf row) :
    levelOf (skill.refresh line row) = levelOf row := by
  by_cases clean : ∀ row' ∈ row, row'.localDirty = false
  · exact (Skill.levelOf_refresh clean).trans same
  · cases row with
    | none => exact absurd nofun clean
    | some row =>
        have dirty : row.localDirty = true := by
          by_contra other
          exact clean fun row' here => Option.some.inj here ▸ Bool.eq_false_iff.mpr other
        have left : (some row).filter SkillRow.localDirty = some row := by
          rw [Option.filter_some, if_pos dirty]
        unfold Skill.refresh
        rw [left]
        cases line with
        | none => rfl
        | some levelId =>
            dsimp only
            split
            · rfl
            · exact same

/-! ## Runs -/

/-- What holds in a run whose steps are apart. -/
structure Sound (skill : Skill) (state : State) : Prop where
  /-- The pushes are counted. -/
  returned : ∀ write ∈ state.returned, write.1 < state.pushes
  pushed : ∀ level push, state.writer = some (.pushed level push) → push < state.pushes
  promoting : state.writer = some .promoting → skill.given state.line ≤ 1

theorem Sound.initial (line : Option ℤ) (row : Option SkillRow) :
    Sound skill (State.initial line row) :=
  ⟨nofun, nofun, nofun⟩

theorem Sound.push (sound : Sound skill state) (level : ℤ) :
    Sound skill (state.push skill level) := by
  unfold State.push
  split
  · exact ⟨sound.returned, nofun, nofun⟩
  · refine ⟨fun write member => ?_, ?_, nofun⟩
    · exact Nat.lt_succ_of_lt (sound.returned write member)
    · rintro other push ⟨⟩
      exact Nat.lt_succ_self _

theorem Sound.step {next : State} {action : Action} (sound : Sound skill state)
    (apart : Apart skill state action) (taken : step skill state action = some next) :
    Sound skill next := by
  cases action with
  | set level | promote =>
      simp only [Skills.step] at taken
      split at taken
      · cases taken
        exact ⟨sound.returned, nofun, nofun⟩
      · cases taken
  | decide =>
      obtain ⟨-, taken⟩ := Option.ite_none_right_eq_some.mp taken
      split at taken
      · next missing =>
          cases taken
          rw [Bool.and_eq_true, decide_eq_true_iff] at missing
          exact ⟨sound.returned, nofun, fun _ => apart missing.2⟩
      · cases taken
        exact ⟨sound.returned, nofun, nofun⟩
  | push =>
      simp only [Skills.step] at taken
      split at taken
      · cases taken
        exact sound.push _
      · cases taken
        exact sound.push _
      · cases taken
  | mirror =>
      simp only [Skills.step] at taken
      split at taken
      · next level push writer =>
          cases taken
          refine ⟨fun write member => ?_, nofun, nofun⟩
          rcases List.mem_cons.mp member with rfl | old
          · exact sound.pushed level push writer
          · exact sound.returned write old
      · cases taken
  | giveUp =>
      cases taken
      exact ⟨sound.returned, nofun, nofun⟩
  | fetch sync =>
      simp only [Skills.step] at taken
      split at taken
      · cases taken
        exact ⟨sound.returned, sound.pushed, sound.promoting⟩
      · cases taken
  | rewrite sync =>
      simp only [Skills.step] at taken
      split at taken
      · cases taken
      · cases taken
        exact ⟨sound.returned, sound.pushed, sound.promoting⟩
  | drop sync =>
      cases taken
      exact ⟨sound.returned, sound.pushed, sound.promoting⟩
  | edit line =>
      cases taken
      exact ⟨sound.returned, sound.pushed, apart⟩

theorem Sound.kept {next : State} {action : Action} (sound : Sound skill state)
    (apart : Apart skill state action) (taken : Skills.step skill state action = some next) :
    Kept skill state action next := by
  cases action with
  | push =>
      intro promoting
      simp only [Skills.step] at taken
      rw [promoting] at taken
      cases taken
      unfold State.push
      split
      · exact le_rfl
      · next pushed =>
          exact (sound.promoting promoting).trans (Skill.given_setEmployeeSkillLevel pushed)
  | rewrite sync =>
      intro fetch fetched
      simp only [Skills.step] at taken
      rw [fetched] at taken
      cases taken
      refine ⟨fun write member since => ?_, Skill.levelOf_refresh⟩
      rcases apart fetch fetched with none | same
      · have earlier := sound.returned write member
        omega
      · exact .inl (Skill.levelOf_refresh_same same)
  | _ => trivial

/-- In runs whose steps are apart no level that was written is lost, and no promotion lowers one. -/
theorem levels_kept {line : Option ℤ} {row : Option SkillRow} {state next : State}
    {action : Action}
    (reachable : Reachable (State.initial line row) (step skill) (Apart skill) state)
    (apart : Apart skill state action) (taken : step skill state action = some next) :
    Kept skill state action next := by
  have sound : Sound skill state :=
    reachable.invariant (Sound.initial line row) fun _ _ _ holds allowed moved =>
      holds.step allowed moved
  exact sound.kept apart taken

/-! ## A level that is taken back -/

/-- A production skill with a level for each bucket. -/
def driving : Skill := ⟨false, [1, 2, 3, 4]⟩

/-- A level is set, and a sync fetches it then. -/
def refetched : State :=
  after (step driving) [.set 3, .push, .mirror, .fetch 0]
    (State.initial (some 2) (some ⟨1, false⟩))

theorem levels_kept_refetched :
    ∃ next, step driving refetched (.rewrite 0) = some next ∧ levelOf next.row = 3 ∧
      Kept driving refetched (.rewrite 0) next := by
  have reachable : Reachable (State.initial (some 2) (some ⟨1, false⟩)) (step driving)
      (Apart driving) refetched := by
    refine Reachable.after ?_ .initial
    intro action member state
    simp only [List.mem_cons, List.not_mem_nil, or_false] at member
    rcases member with rfl | rfl | rfl | rfl <;> trivial
  have apart : Apart driving refetched (.rewrite 0) := by
    intro fetch fetched
    have known : refetched.syncs 0 = some ⟨some 4, 1⟩ := by decide +kernel
    rw [known, Option.some.injEq] at fetched
    subst fetched
    exact .inl (by decide +kernel)
  have written : (step driving refetched (.rewrite 0)).map (fun next => levelOf next.row) =
      some 3 := by decide +kernel
  cases taken : step driving refetched (.rewrite 0) with
  | none =>
      rw [taken] at written
      cases written
  | some next =>
      rw [taken] at written
      exact ⟨next, rfl, Option.some.inj written, levels_kept reachable apart taken⟩

/-- The level is fetched, then somebody sets another, and then the sync writes what it fetched. -/
def overtaken : State :=
  after (step driving) [.fetch 0, .set 3, .push, .mirror]
    (State.initial (some 2) (some ⟨1, false⟩))

theorem level_reverted :
    ¬ ∀ (skill : Skill) (line : Option ℤ) (row : Option SkillRow) (state next : State)
      (action : Action),
      Reachable (State.initial line row) (step skill) (fun _ _ => True) state →
      step skill state action = some next → Kept skill state action next := by
  intro holds
  have reachable : Reachable (State.initial (some 2) (some ⟨1, false⟩)) (step driving)
      (fun _ _ => True) overtaken := Reachable.after (fun _ _ _ => trivial) .initial
  have written : (step driving overtaken (.rewrite 0)).map (fun next => levelOf next.row) =
      some 1 := by decide +kernel
  cases taken : step driving overtaken (.rewrite 0) with
  | none =>
      rw [taken] at written
      cases written
  | some next =>
      rw [taken] at written
      have kept := (holds driving _ _ overtaken next (.rewrite 0) reachable taken ⟨some 2, 0⟩
        (by decide +kernel)).1 (0, 3) (by decide +kernel) (Nat.le_refl 0)
      have level : levelOf next.row = 1 := Option.some.inj written
      rw [level] at kept
      exact absurd kept (by decide +kernel)

end PlantManager.Skills

import Mathlib

/-! # Checks that raise

A check raises when its condition holds (`Checks.raiseIf`). The lemmas
here read a sequence of checks that returned as the facts it established.
-/

namespace PlantManager.Checks

universe u v

variable {ε : Type u} {α β : Type v}

/-- Raise when the condition holds. -/
def raiseIf (bad : Prop) [Decidable bad] (error : ε) : Except ε Unit :=
  if bad then .error error else .ok ()

@[simp] theorem raiseIf_eq_ok {bad : Prop} [Decidable bad] {error : ε} {result : Unit} :
    raiseIf bad error = .ok result ↔ ¬ bad := by
  unfold raiseIf
  split <;> simp_all

theorem bind_eq_ok {first : Except ε α} {next : α → Except ε β} {result : β} :
    first >>= next = .ok result ↔ ∃ value, first = .ok value ∧ next value = .ok result := by
  cases first with
  | error failure => exact ⟨nofun, nofun⟩
  | ok value => exact ⟨fun returned => ⟨value, rfl, returned⟩, fun ⟨_, rfl, returned⟩ => returned⟩

theorem eq_ok_of_toOption {first : Except ε α} {value : α} (found : first.toOption = some value) :
    first = .ok value := by
  cases first with
  | error failure => cases found
  | ok result => exact congrArg Except.ok (Option.some.inj found)

@[simp] theorem raiseIf_bind_eq_ok {bad : Prop} [Decidable bad] {error : ε}
    {γ : Type} {next : Unit → Except ε γ} {result : γ} :
    raiseIf bad error >>= next = .ok result ↔ ¬ bad ∧ next () = .ok result := by
  rw [bind_eq_ok]
  exact ⟨fun ⟨_, passed, returned⟩ => ⟨raiseIf_eq_ok.mp passed, returned⟩,
    fun ⟨good, returned⟩ => ⟨(), raiseIf_eq_ok.mpr good, returned⟩⟩

/-- Make a check only when a condition holds. -/
def onlyIf (condition : Prop) [Decidable condition] (check : Except ε Unit) : Except ε Unit :=
  if condition then check else .ok ()

@[simp] theorem onlyIf_eq_ok {condition : Prop} [Decidable condition] {check : Except ε Unit}
    {result : Unit} : onlyIf condition check = .ok result ↔ (condition → check = .ok result) := by
  unfold onlyIf
  split <;> simp_all

theorem raiseIf_of_not {bad : Prop} [Decidable bad] (good : ¬ bad) (error : ε) :
    raiseIf bad error = .ok () := if_neg good

/-- What every step of a loop keeps holds when the loop returns. -/
theorem invariant_of_foldlM {γ : Type v} {step : β → γ → Except ε β} (holds : β → Prop)
    {items : List γ} (kept : ∀ item ∈ items, ∀ before after, holds before →
      step before item = .ok after → holds after) {start last : β} (begins : holds start)
    (returned : items.foldlM step start = .ok last) : holds last := by
  induction items generalizing start with
  | nil => exact Except.ok.inj returned ▸ begins
  | cons item rest ih =>
      obtain ⟨next, one, later⟩ := bind_eq_ok.mp returned
      exact ih (fun other member => kept other (List.mem_cons_of_mem _ member))
        (kept item List.mem_cons_self start next begins one) later

variable {items : List α} {f : α → Except ε β}

/-- A loop of checks returns when every check does. -/
theorem forM_eq_ok {check : α → Except ε PUnit} {result : PUnit} :
    items.forM check = .ok result ↔ ∀ item ∈ items, check item = .ok ⟨⟩ := by
  induction items with
  | nil => exact ⟨fun _ _ member => by simp at member, fun _ => rfl⟩
  | cons item rest ih =>
      change check item >>= (fun _ => rest.forM check) = _ ↔ _
      rw [bind_eq_ok, List.forall_mem_cons]
      exact ⟨fun ⟨_, checked, others⟩ => ⟨checked, ih.mp others⟩,
        fun ⟨checked, others⟩ => ⟨_, checked, ih.mpr others⟩⟩

/-- What every step of a fold that returned has established. -/
theorem forall_of_foldlM_eq_ok {step : β → α → Except ε β} {holds : α → Prop}
    (each : ∀ {before item after}, step before item = .ok after → holds item) {first last : β}
    (returned : items.foldlM step first = .ok last) : ∀ item ∈ items, holds item := by
  induction items generalizing first with
  | nil => exact fun _ member => by simp at member
  | cons item rest ih =>
      rw [List.foldlM_cons, bind_eq_ok] at returned
      obtain ⟨middle, checked, others⟩ := returned
      exact List.forall_mem_cons.mpr ⟨each checked, ih others⟩

variable {results : List β}

theorem mapM_cons_eq_ok {item : α} {rest : List α} :
    (item :: rest).mapM f = .ok results ↔
      ∃ result others, f item = .ok result ∧ rest.mapM f = .ok others ∧
        results = result :: others := by
  rw [List.mapM_cons, bind_eq_ok]
  constructor
  · rintro ⟨result, one, later⟩
    obtain ⟨others, rest, same⟩ := bind_eq_ok.mp later
    exact ⟨result, others, one, rest, (Except.ok.inj same).symm⟩
  · rintro ⟨result, others, one, rest, rfl⟩
    exact ⟨result, one, bind_eq_ok.mpr ⟨others, rest, rfl⟩⟩

/-- The results of a map that returned are those of its items. -/
theorem mem_of_mapM_eq_ok (returned : items.mapM f = .ok results) (result : β) :
    result ∈ results ↔ ∃ item ∈ items, f item = .ok result := by
  induction items generalizing results with
  | nil =>
      obtain rfl := Except.ok.inj returned
      exact ⟨fun member => absurd member List.not_mem_nil,
        fun ⟨_, member, _⟩ => absurd member List.not_mem_nil⟩
  | cons item rest ih =>
      obtain ⟨first, others, one, later, rfl⟩ := mapM_cons_eq_ok.mp returned
      rw [List.mem_cons, List.exists_mem_cons_iff, ih later, one]
      exact or_congr_left ⟨fun same => same ▸ rfl, fun same => (Except.ok.inj same).symm⟩

theorem exists_ok_of_mapM_eq_ok (returned : items.mapM f = .ok results) {item : α}
    (member : item ∈ items) : ∃ result, f item = .ok result := by
  induction items generalizing results with
  | nil => cases member
  | cons first rest ih =>
      obtain ⟨result, others, one, later, rfl⟩ := mapM_cons_eq_ok.mp returned
      rcases List.mem_cons.mp member with rfl | inRest
      · exact ⟨result, one⟩
      · exact ih later inRest

/-- Of the joined results of distinct keys, those of one key are its own. -/
theorem filter_flatten_of_mapM {κ γ : Type v} [DecidableEq κ] {keys : List κ}
    {f : κ → Except ε (List γ)} (tag : γ → κ) {results : List (List γ)}
    (tagged : ∀ key ∈ keys, ∀ items, f key = .ok items → ∀ item ∈ items, tag item = key)
    (distinct : keys.Nodup) (returned : keys.mapM f = .ok results) (wanted : κ) :
    if wanted ∈ keys then f wanted = .ok (results.flatten.filter fun item => tag item = wanted)
    else results.flatten.filter (fun item => tag item = wanted) = [] := by
  induction keys generalizing results with
  | nil =>
      obtain rfl := Except.ok.inj returned
      rfl
  | cons key rest ih =>
      obtain ⟨absent, restDistinct⟩ := List.nodup_cons.mp distinct
      obtain ⟨first, others, one, later, rfl⟩ := mapM_cons_eq_ok.mp returned
      have laterFound := ih (fun other inRest => tagged other (List.mem_cons_of_mem _ inRest))
        restDistinct later
      have firstTagged := tagged key List.mem_cons_self first one
      rw [List.flatten_cons, List.filter_append]
      by_cases same : wanted = key
      · subst same
        rw [if_neg absent] at laterFound
        rw [if_pos List.mem_cons_self, laterFound, List.append_nil, one, List.filter_eq_self.mpr
          fun item member => decide_eq_true (firstTagged item member)]
      · have none : first.filter (fun item => tag item = wanted) = [] :=
          List.filter_eq_nil_iff.mpr fun item member found =>
            same ((of_decide_eq_true found).symm.trans (firstTagged item member))
        rw [none, List.nil_append]
        simpa only [List.mem_cons, same, false_or] using laterFound

end PlantManager.Checks

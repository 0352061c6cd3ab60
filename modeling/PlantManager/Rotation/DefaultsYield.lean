import PlantManager.Rotation.Finished

/-! # When an exact default yields

A person with an exact default is to be sent elsewhere only when keeping the default would leave
somebody else without a place (`Rotation.Inputs.YieldsToStranding`). The default is
only one edge of cost zero in the flow, and the flow fills needed places first and adds up the
costs of all people. `Rotation.Inputs.exact_defaults_yield`: the rule holds where
every best placement keeps the default, and where it holds some best placement does, unless no
placement of the most people can.
-/

namespace PlantManager.Rotation

open Mapping Ranking Solver Roster

namespace Inputs

variable (lower : String → String) (input : Inputs)

/-- A placement sends somebody to a center. -/
def Sends (chosen : List CandidateEdge) (name center : String) : Prop :=
  ∃ edge ∈ chosen, edge.person = name ∧ edge.center = center

/-- Somebody with one valid exact default, at a center that is staffed person by person. -/
structure OrdinaryDefault (name center : String) : Prop where
  target : targetOf (input.fillPlan lower).defaults name = some (.exact center)
  ordinary : ∀ planned ∈ (input.fillPlan lower).centers, planned.center.center = center →
    planned.coupled = false

/-- The people of the flow who are on a finished board. -/
def placedByFlow (suggestion : RecycledSuggestion) : List String :=
  (flowPeople (input.fillPlan lower) (input.crews lower)).filter fun name =>
    name ∈ seatedNames suggestion.assignments

/-- Whoever is not at an exact default could only be sent there by placing fewer people. -/
def YieldsToStranding (suggestion : RecycledSuggestion) : Prop :=
  ∀ name center, OrdinaryDefault lower input name center →
    name ∉ seatsAt suggestion.assignments center →
    ∀ other, FlowPlacement lower input other → Sends other name center →
      other.length < (input.placedByFlow lower suggestion).length

/-- No placement of the most people sends somebody to a center. -/
def Stranding (name center : String) : Prop :=
  ∀ chosen, FlowPlacement lower input chosen →
    (∀ other, FlowPlacement lower input other → other.length ≤ chosen.length) →
    ¬Sends chosen name center

/-- Every best placement keeps an exact default that strands nobody. -/
def BestKeepDefaults : Prop :=
  ∀ name center, OrdinaryDefault lower input name center →
    (∀ chosen, BestPlacement lower input chosen → Sends chosen name center) ∨
      Stranding lower input name center

/-- Some best placement keeps an exact default that strands nobody. -/
def SomeBestKeepDefaults : Prop :=
  ∀ name center, OrdinaryDefault lower input name center →
    (∃ chosen, BestPlacement lower input chosen ∧ Sends chosen name center) ∨
      Stranding lower input name center

end Inputs

namespace Inputs

variable {lower : String → String} {input : Inputs}

variable {flow : List AssignmentDecision} {chosen : List CandidateEdge}

section

variable (decided : Decided lower input flow chosen)
include decided

theorem Decided.mem_iff {center name : String} :
    name ∈ decidedAt flow center ↔ Sends chosen name center := by
  rw [mem_decidedAt]
  constructor
  · rintro ⟨item, member, rfl, rfl⟩
    obtain ⟨edge, picked, rfl⟩ := List.mem_map.mp (decided.perm.mem_iff.mp member)
    exact ⟨edge, picked, rfl, rfl⟩
  · rintro ⟨edge, picked, rfl, rfl⟩
    exact ⟨decision edge, decided.perm.mem_iff.mpr (List.mem_map_of_mem picked), rfl, rfl⟩

/-- Somebody of the flow is seated exactly where the flow sent them. -/
theorem Decided.mem_seatsAt {name : String}
    (inFlow : name ∈ flowPeople (input.fillPlan lower) (input.crews lower)) (center : String) :
    name ∈ seatsAt (input.finish lower (input.fillPlan lower) (input.crews lower) flow).assignments
      center ↔ Sends chosen name center := by
  obtain ⟨inPlan, notInCrew⟩ := List.mem_filter.mp inFlow
  obtain ⟨-, free⟩ := List.mem_filter.mp inPlan
  have unassigned := (of_decide_eq_true free).1
  obtain ⟨added, seats, perm⟩ :=
    @seatsAt_finish lower input _ (input.fillPlan lower) _ decided.grouped center
  have notReserved : name ∉ (input.fillPlan lower).reservations.board.seats center :=
    fun seated => unassigned (mem_seatedNames.mpr ⟨center, seated⟩)
  have notCrew : name ∉ decidedAt (input.crews lower) center := by
    intro inCrew
    obtain ⟨item, member, -, same⟩ := mem_decidedAt.mp inCrew
    exact of_decide_eq_true notInCrew (same ▸ List.mem_map_of_mem member)
  rw [seats, List.mem_append, or_iff_right notReserved, perm.mem_iff, decidedAt_append,
    List.mem_append, or_iff_right notCrew, decided.mem_iff]

/-- The flow places as many people as it chose edges. -/
theorem Decided.length_placedByFlow :
    (input.placedByFlow lower
      (input.finish lower (input.fillPlan lower) (input.crews lower) flow)).length =
        chosen.length := by
  have placement := decided.best.placement
  have people : (flowPeople (input.fillPlan lower) (input.crews lower)).Nodup :=
    (flow_problem (input.crews lower)).peopleDistinct
  have perm : (input.placedByFlow lower
      (input.finish lower (input.fillPlan lower) (input.crews lower) flow)).Perm
        (chosen.map CandidateEdge.person) := by
    refine (List.perm_ext_iff_of_nodup (people.filter _) placement.once).mpr fun name => ?_
    rw [List.mem_filter, decide_eq_true_iff, mem_seatedNames, List.mem_map]
    constructor
    · rintro ⟨inFlow, center, seated⟩
      obtain ⟨edge, picked, same, -⟩ := (decided.mem_seatsAt inFlow center).mp seated
      exact ⟨edge, picked, same⟩
    · rintro ⟨edge, picked, rfl⟩
      have inFlow := placement.person edge picked
      exact ⟨inFlow, edge.center, (decided.mem_seatsAt inFlow _).mpr ⟨edge, picked, rfl, rfl⟩⟩
  rw [perm.length_eq, List.length_map]

theorem Decided.most : ∀ other, FlowPlacement lower input other → other.length ≤ chosen.length :=
  fun other placed => (decided.best.best other placed).1

theorem Decided.yields (keeps : BestKeepDefaults lower input) : YieldsToStranding lower input
      (input.finish lower (input.fillPlan lower) (input.crews lower) flow) := by
  intro name center ordinary missing other placed sends
  rw [decided.length_placedByFlow]
  obtain ⟨edge, picked, rfl, rfl⟩ := sends
  have inFlow := placed.person edge picked
  obtain kept | stranding := keeps _ _ ordinary
  · exact absurd ((decided.mem_seatsAt inFlow _).mpr (kept chosen decided.best)) missing
  · refine lt_of_le_of_ne (decided.most other placed) fun same => ?_
    have largest : ∀ another, FlowPlacement lower input another →
        another.length ≤ other.length := by
      rw [same]
      exact decided.most
    exact stranding other placed largest ⟨edge, picked, rfl, rfl⟩

theorem Decided.keeps (yields : YieldsToStranding lower input
      (input.finish lower (input.fillPlan lower) (input.crews lower) flow)) :
    SomeBestKeepDefaults lower input := by
  intro name center ordinary
  by_cases kept : Sends chosen name center
  · exact .inl ⟨chosen, decided.best, kept⟩
  · right
    intro other placed largest sends
    have fewer : other.length < chosen.length := by
      have inFlow : name ∈ flowPeople (input.fillPlan lower) (input.crews lower) := by
        obtain ⟨edge, picked, rfl, -⟩ := sends
        exact placed.person edge picked
      have missing := mt (decided.mem_seatsAt inFlow center).mp kept
      rw [← decided.length_placedByFlow]
      exact yields name center ordinary missing other placed sends
    exact absurd (largest chosen decided.best.placement) (not_le.mpr fewer)

end

/-- **Exact defaults yield to stranding where the best placements keep them**, and hardly
elsewhere: where they do, some best placement keeps each default that strands nobody. -/
theorem exact_defaults_yield (lower : String → String) (input : Inputs) :
    ∃ suggestion, (∀ᶠ fuel in Filter.atTop, input.suggest lower fuel = .ok suggestion) ∧
      (BestKeepDefaults lower input → YieldsToStranding lower input suggestion) ∧
      (YieldsToStranding lower input suggestion → SomeBestKeepDefaults lower input) := by
  obtain ⟨result, reached, chosen, best, perm⟩ := @flow_best lower input
  have decided : Decided lower input result.decisions chosen := ⟨best, perm⟩
  refine ⟨_, reached.mono fun fuel finished => ?_, decided.yields, decided.keeps⟩
  rw [suggest, finished]
  rfl

end Inputs

/-! ## A default that yields to a minimum -/

def repairer : Person := { name := "ann", skills := ⟨[("Repair", 2)], by decide⟩ }

/-- One person whose default is the first of two benches. Only the second needs somebody. -/
def benches : Inputs where
  mode := .normal
  roster := ⟨[repairer], by decide⟩
  groupLocations := ⟨[("Repair", ["Repair 1", "Repair 2"])], by decide⟩
  centerMinimums := ⟨[("Repair 1", 0), ("Repair 2", 1)], by decide⟩
  centerCapacities := ⟨[("Repair 1", some 1), ("Repair 2", some 1)], by decide⟩
  exactDefaults := ⟨[("Repair 1", ["ann"])], by decide⟩

/-- The only edge to the first bench. -/
def firstBench : List CandidateEdge := [⟨"ann", "Repair 1", 2, .regular, 0⟩]

theorem firstBench_placement : Inputs.FlowPlacement id benches firstBench where
  candidate := by decide +kernel
  person := by decide +kernel
  center := by decide +kernel
  once := by decide +kernel
  capacity := by decide +kernel

/-- The person is sent to the second bench, although the first would strand nobody. -/
theorem default_yields_to_minimum : benches.minimumOnly = false ∧
    ∃ suggestion, benches.suggest id 10 = .ok suggestion ∧
      ¬Inputs.YieldsToStranding id benches suggestion := by
  refine ⟨rfl, ?_⟩
  obtain ⟨suggestion, run, seats⟩ : ∃ suggestion,
      (benches.suggest id 10).toOption = some suggestion ∧
        (seatsAt suggestion.assignments "Repair 1", (benches.placedByFlow id suggestion).length) =
          ([], 1) :=
    Option.map_eq_some_iff.mp (by decide +kernel)
  obtain ⟨empty, placed⟩ := Prod.mk.inj seats
  refine ⟨suggestion, Checks.eq_ok_of_toOption run, fun yields => ?_⟩
  have default : Inputs.OrdinaryDefault id benches "ann" "Repair 1" :=
    ⟨by decide +kernel, by decide +kernel⟩
  have fewer := yields "ann" "Repair 1" default (by rw [empty]; exact List.not_mem_nil)
    firstBench firstBench_placement ⟨_, List.mem_singleton_self _, rfl, rfl⟩
  rw [placed] at fewer
  exact absurd fewer (by decide)

end PlantManager.Rotation

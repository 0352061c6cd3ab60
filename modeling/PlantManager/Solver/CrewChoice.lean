import PlantManager.Solver.Problem

/-! # Choices of crews

`Solver.CrewChoice`: for every center of a list one of its crews or
nobody, such that nobody is used twice. Centers are of any type with a list of crews.
-/

namespace PlantManager.Solver

/-- Crews for some of the centers, disjoint from the people used already. -/
inductive CrewChoice {κ : Type*} (options : κ → List CrewOption) :
    List κ → Finset String → List CandidateEdge → Prop where
  | done (usedPeople : Finset String) : CrewChoice options [] usedPeople []
  | skip {center rest usedPeople chosen} :
      CrewChoice options rest usedPeople chosen →
      CrewChoice options (center :: rest) usedPeople chosen
  | take {center rest usedPeople option chosen} :
      option ∈ options center → Disjoint option.people.toFinset usedPeople →
      CrewChoice options rest (usedPeople ∪ option.people.toFinset) chosen →
      CrewChoice options (center :: rest) usedPeople (option.members ++ chosen)

/-- The people of some edges. -/
def peopleOf (chosen : List CandidateEdge) : Finset String :=
  (chosen.map CandidateEdge.person).toFinset

@[simp] theorem peopleOf_append (first second : List CandidateEdge) :
    peopleOf (first ++ second) = peopleOf first ∪ peopleOf second := by
  simp [peopleOf]

@[simp] theorem peopleOf_nil : peopleOf [] = ∅ := rfl

theorem peopleOf_members (option : CrewOption) :
    peopleOf option.members = option.people.toFinset := rfl

namespace CrewChoice

variable {κ : Type*} {options : κ → List CrewOption} {name : κ → String} {first rest : List κ}
  {usedPeople : Finset String} {chosen more : List CandidateEdge}

theorem append (choice : CrewChoice options first usedPeople chosen)
    (later : CrewChoice options rest (usedPeople ∪ peopleOf chosen) more) :
    CrewChoice options (first ++ rest) usedPeople (chosen ++ more) := by
  induction choice with
  | done usedPeople => simpa using later
  | skip _ ih => exact .skip (ih later)
  | take offered apart _ ih =>
      rw [List.append_assoc]
      refine .take offered apart (ih ?_)
      rwa [peopleOf_append, ← Finset.union_assoc, peopleOf_members] at later

/-- Everyone chosen is in one of the crews. -/
theorem exists_option (choice : CrewChoice options rest usedPeople chosen) :
    ∀ edge ∈ chosen, ∃ center ∈ rest, ∃ option ∈ options center, edge ∈ option.members := by
  induction choice with
  | done _ => simp
  | skip _ ih =>
      intro edge member
      obtain ⟨center, listed, found⟩ := ih edge member
      exact ⟨center, List.mem_cons_of_mem _ listed, found⟩
  | take offered _ _ ih =>
      intro edge member
      rcases List.mem_append.mp member with inCrew | later
      · exact ⟨_, List.mem_cons_self, _, offered, inCrew⟩
      · obtain ⟨center, listed, found⟩ := ih edge later
        exact ⟨center, List.mem_cons_of_mem _ listed, found⟩

/-- Every crew member is for one of the centers. -/
theorem centers (choice : CrewChoice options rest usedPeople chosen)
    (own : ∀ center ∈ rest, ∀ option ∈ options center, ∀ member ∈ option.members,
      member.center = name center) :
    ∀ edge ∈ chosen, edge.center ∈ rest.map name := by
  induction choice with
  | done _ => simp
  | skip _ ih =>
      intro edge member
      exact List.mem_cons_of_mem _
        (ih (fun center listed => own center (List.mem_cons_of_mem _ listed)) edge member)
  | take offered _ _ ih =>
      intro edge member
      rcases List.mem_append.mp member with inCrew | later
      · rw [own _ List.mem_cons_self _ offered edge inCrew]
        exact List.mem_cons_self
      · exact List.mem_cons_of_mem _
          (ih (fun center listed => own center (List.mem_cons_of_mem _ listed)) edge later)

/-- Nobody is in two crews, and nobody used already is in one. -/
theorem people (choice : CrewChoice options rest usedPeople chosen)
    (nodup : ∀ center ∈ rest, ∀ option ∈ options center, option.people.Nodup) :
    (chosen.map CandidateEdge.person).Nodup ∧ Disjoint (peopleOf chosen) usedPeople := by
  induction choice with
  | done _ => simp
  | skip _ ih => exact ih fun center listed => nodup center (List.mem_cons_of_mem _ listed)
  | take offered apart _ ih =>
      obtain ⟨distinct, disjoint⟩ :=
        ih fun center listed => nodup center (List.mem_cons_of_mem _ listed)
      rw [Finset.disjoint_union_right] at disjoint
      constructor
      · rw [List.map_append]
        refine List.Nodup.append (nodup _ List.mem_cons_self _ offered) distinct ?_
        intro name inCrew later
        exact Finset.disjoint_left.mp disjoint.2 (List.mem_toFinset.mpr later)
          (List.mem_toFinset.mpr inCrew)
      · rw [peopleOf_append, Finset.disjoint_union_left]
        exact ⟨apart, disjoint.1⟩

theorem card_people (choice : CrewChoice options rest usedPeople chosen)
    (nodup : ∀ center ∈ rest, ∀ option ∈ options center, option.people.Nodup) :
    (usedPeople ∪ peopleOf chosen).card = usedPeople.card + chosen.length := by
  obtain ⟨distinct, disjoint⟩ := choice.people nodup
  rw [Finset.card_union_of_disjoint disjoint.symm]
  congr 1
  unfold peopleOf
  rw [List.toFinset_card_of_nodup distinct, List.length_map]

end CrewChoice

/-- The chosen edges for a center. -/
def chosenFor (chosen : List CandidateEdge) (name : String) : List CandidateEdge :=
  chosen.filter fun edge => edge.center = name

/-- The edges chosen at the named centers. -/
def chosenAmong (chosen : List CandidateEdge) (names : List String) : List CandidateEdge :=
  chosen.filter fun edge => edge.center ∈ names

theorem chosenAmong_cons (chosen : List CandidateEdge) {name : String} {names : List String}
    (absent : name ∉ names) :
    (chosenAmong chosen (name :: names)).Perm (chosenFor chosen name ++ chosenAmong chosen names) := by
  unfold chosenAmong chosenFor
  induction chosen with
  | nil => exact .nil
  | cons edge rest ih =>
      by_cases here : edge.center = name
      · have notThere : edge.center ∉ names := here ▸ absent
        simpa [here, absent] using ih
      · by_cases there : edge.center ∈ names
        · simp only [List.filter_cons, List.mem_cons, here, there, or_true, decide_true, ↓reduceIte,
            decide_false, Bool.false_eq_true] at ih ⊢
          exact (ih.cons edge).trans List.perm_middle.symm
        · simpa [List.filter_cons, here, there] using ih

theorem disjoint_people {first second : List CandidateEdge}
    (distinct : ((first ++ second).map CandidateEdge.person).Nodup) :
    Disjoint (peopleOf first) (peopleOf second) := by
  rw [List.map_append] at distinct
  rw [Finset.disjoint_left]
  intro name inFirst inSecond
  exact List.disjoint_of_nodup_append distinct (List.mem_toFinset.mp inFirst)
    (List.mem_toFinset.mp inSecond)

theorem peopleOf_perm {first second : List CandidateEdge} (perm : first.Perm second) :
    peopleOf first = peopleOf second := List.toFinset_eq_of_perm _ _ (perm.map _)

section Centers

variable {κ : Type*} {options : κ → List CrewOption} {name : κ → String}

/-- Edges that have at each center one of its crews or nobody make a choice of crews. -/
theorem exists_crewChoice {chosen : List CandidateEdge}
    (people : (chosen.map CandidateEdge.person).Nodup) (part : List κ) :
    (∀ center ∈ part, chosenFor chosen (name center) = [] ∨
      ∃ option ∈ options center, (chosenFor chosen (name center)).Perm option.members) →
    (part.map name).Nodup → ∀ usedPeople : Finset String,
    Disjoint (peopleOf (chosenAmong chosen (part.map name))) usedPeople →
    ∃ crews, CrewChoice options part usedPeople crews ∧
      crews.Perm (chosenAmong chosen (part.map name)) := by
  induction part with
  | nil => exact fun _ _ usedPeople _ => ⟨[], .done usedPeople, by simp [chosenAmong]⟩
  | cons center rest ih =>
      intro crewed distinct usedPeople apart
      obtain ⟨absent, restDistinct⟩ := List.nodup_cons.mp distinct
      have restCrewed := fun other member => crewed other (List.mem_cons_of_mem _ member)
      have split := chosenAmong_cons chosen absent
      rw [List.map_cons] at apart ⊢
      rw [peopleOf_perm split, peopleOf_append, Finset.disjoint_union_left] at apart
      rcases crewed center List.mem_cons_self with none | ⟨option, offered, members⟩
      · obtain ⟨crews, choice, perm⟩ := ih restCrewed restDistinct usedPeople apart.2
        rw [none, List.nil_append] at split
        exact ⟨crews, .skip choice, perm.trans split.symm⟩
      · have sub : (chosenAmong chosen (name center :: rest.map name)).Sublist chosen :=
          List.filter_sublist
        have nodup := (split.map CandidateEdge.person).nodup_iff.mp
          (people.sublist (sub.map _))
        have between := disjoint_people nodup
        rw [peopleOf_perm members] at between apart
        obtain ⟨crews, choice, perm⟩ := ih restCrewed restDistinct
          (usedPeople ∪ option.people.toFinset)
          (Finset.disjoint_union_right.mpr ⟨apart.2, between.symm⟩)
        exact ⟨option.members ++ crews, .take offered apart.1 choice,
          (members.symm.append perm).trans split.symm⟩

/-- At each center a choice of crews has one of its crews or nobody. -/
theorem CrewChoice.chosenFor_eq {part : List κ} {usedPeople : Finset String}
    {chosen : List CandidateEdge} (choice : CrewChoice options part usedPeople chosen)
    (distinct : (part.map name).Nodup)
    (own : ∀ center ∈ part, ∀ option ∈ options center, ∀ member ∈ option.members,
      member.center = name center) :
    ∀ center ∈ part, chosenFor chosen (name center) = [] ∨
      ∃ option ∈ options center, chosenFor chosen (name center) = option.members := by
  induction choice with
  | done _ => simp
  | @skip center rest usedPeople chosen later ih =>
      obtain ⟨absent, restDistinct⟩ := List.nodup_cons.mp distinct
      have restOwn := fun other member => own other (List.mem_cons_of_mem _ member)
      intro other member
      rcases List.mem_cons.mp member with rfl | inRest
      · left
        refine List.filter_eq_nil_iff.mpr fun edge inside => ?_
        have there := later.centers restOwn edge inside
        intro same
        rw [of_decide_eq_true same] at there
        exact absent there
      · exact ih restDistinct restOwn other inRest
  | @take center rest usedPeople option chosen offered apart later ih =>
      obtain ⟨absent, restDistinct⟩ := List.nodup_cons.mp distinct
      have restOwn := fun other member => own other (List.mem_cons_of_mem _ member)
      intro other member
      rw [chosenFor, List.filter_append, ← chosenFor, ← chosenFor]
      rcases List.mem_cons.mp member with rfl | inRest
      · right
        refine ⟨option, offered, ?_⟩
        have whole : chosenFor option.members (name other) = option.members :=
          List.filter_eq_self.mpr fun edge inside =>
            decide_eq_true (own other List.mem_cons_self option offered edge inside)
        have none : chosenFor chosen (name other) = [] :=
          List.filter_eq_nil_iff.mpr fun edge inside same => absent
            (of_decide_eq_true same ▸ later.centers restOwn edge inside)
        rw [whole, none, List.append_nil]
      · have none : chosenFor option.members (name other) = [] := by
          refine List.filter_eq_nil_iff.mpr fun edge inside same => absent ?_
          rw [← own center List.mem_cons_self option offered edge inside,
            of_decide_eq_true same]
          exact List.mem_map_of_mem inRest
        rw [none, List.nil_append]
        exact ih restDistinct restOwn other inRest

theorem CrewChoice.none (part : List κ) (usedPeople : Finset String) :
    CrewChoice options part usedPeople [] := by
  induction part with
  | nil => exact .done usedPeople
  | cons _ _ ih => exact .skip ih

end Centers

end PlantManager.Solver

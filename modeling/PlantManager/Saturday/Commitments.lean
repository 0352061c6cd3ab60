import PlantManager.Saturday.RecruitingStore

/-! # Saturday commitments stay placeable

In every state that the operations on a round reach, each committed person has a requested place
of an opening that the person is eligible for, and the hours of each fit the shift:
`Saturday.commitments_placeable`.
-/

namespace PlantManager.Saturday

open Checks Mapping Staffing Transition

variable {H : Type}

/-- Every required skill of a work center is at least level 1. -/
def EligibleFor (plant : Plant) (person wcId : ℤ) : Prop :=
  plant.requiredSkills wcId ≠ [] ∧ ∀ skill ∈ plant.requiredSkills wcId, 1 ≤ plant.level person skill

def Committed (tables : Tables H) (person : ℤ) (response : Response) : Prop :=
  tables.responses.get person = some response ∧ response.status = .committed

/-- Half hours inside the shift of a round. -/
def FitsShift (recruitment : Recruitment) (response : Response) : Prop :=
  ∃ start finish, response.availabilityStart = some start ∧
    response.availabilityEnd = some finish ∧ OnHalfHour start ∧ OnHalfHour finish ∧
    recruitment.shiftStart ≤ start ∧ start < finish ∧ finish ≤ recruitment.shiftEnd

/-- What holds in a state of a run, and what the next operation does to it. -/
structure Sound (plant : Plant) (state : State H) : Prop where
  /-- Each committed person has an own place. -/
  placed : ∃ place : ℤ → Slot,
    (∀ person response, Committed state.tables person response →
      EligibleFor plant person (place person).1 ∧
      ∃ count, state.tables.openings.get (place person).1 = some count ∧
        (place person).2 < count) ∧
    ∀ first second one other, Committed state.tables first one →
      Committed state.tables second other → place first = place second → first = second
  windows : ∀ recruitment, state.tables.recruitment = some recruitment →
    ∀ person response, Committed state.tables person response → FitsShift recruitment response
  errors : ∀ now operation failure,
    Operation.perform plant now state.tables operation = .error failure →
      ∀ next, step plant state (now, operation) = some next → next.tables = state.tables
  deadline : ∀ now operation recruitment, state.tables.recruitment = some recruitment →
    recruitment.responseDeadline ≤ now → operation.byEmployee = true →
      ∀ next, step plant state (now, operation) = some next → next.tables = state.tables
  closed : ∀ recruitment, state.tables.recruitment = some recruitment →
    recruitment.status ≠ .recruiting → ∀ action next, step plant state action = some next →
      (∃ later, next.tables.recruitment = some later ∧ later.status ≠ .recruiting) ∧
      ∀ person response, Committed next.tables person response →
        Committed state.tables person response

/-! ## What an operation does -/

/-- The round takes responses. -/
def IsOpen (tables : Tables H) (now : ℤ) (recruitment : Recruitment) : Prop :=
  tables.recruitment = some recruitment ∧ recruitment.status = .recruiting ∧
    now < recruitment.responseDeadline

/-- What an operation that does not raise leaves. -/
inductive Effect (plant : Plant) (now : ℤ) (tables : Tables H) : Operation → Tables H → Prop
  | same {operation} : Effect plant now tables operation tables
  | answered {operation person status recruitment} (isOpen : IsOpen tables now recruitment)
      (answer : status ≠ ResponseStatus.committed)
      (before : ∀ existing, tables.responses.get person = some existing →
        existing.status ≠ .committed) :
      Effect plant now tables operation (insertResponse tables person status now none ∅)
  | committed {operation person canVolunteer start finish recruitment coverage}
      (isOpen : IsOpen tables now recruitment) (startHalf : OnHalfHour start)
      (finishHalf : OnHalfHour finish) (inside : recruitment.shiftStart ≤ start ∧
        start < finish ∧ finish ≤ recruitment.shiftEnd)
      (covered : coverageWithCandidate plant tables person
        (eligibleWcIdsForPerson plant canVolunteer person (bundleOpenings plant tables)) =
          some coverage) :
      Effect plant now tables operation
        (insertResponse tables person .committed now (some (start, finish))
          (eligibleWcIdsForPerson plant canVolunteer person (bundleOpenings plant tables)))
  | cancelled {operation person actor reason} {existing : Response}
      (found : tables.responses.get person = some existing)
      (isOpen : operation.byEmployee = true → ∃ recruitment, IsOpen tables now recruitment) :
      Effect plant now tables operation { tables with
        responses := tables.responses.set person { existing with
          status := .cancelled
          cancelledAt := some now
          cancelledBy := actor
          cancellationReason := reason } }
  | moved {operation recruitment schedule} {later : Recruitment}
      (manager : operation.byEmployee = false) (begun : tables.recruitment = some recruitment)
      (shift : later.shiftStart = recruitment.shiftStart ∧ later.shiftEnd = recruitment.shiftEnd)
      (left : later.status ≠ .recruiting) :
      Effect plant now tables operation
        { tables with recruitment := some later, schedule := schedule }
  | activated {operation openings recruitment schedule} (manager : operation.byEmployee = false)
      (new : tables.recruitment = none) :
      Effect plant now tables operation
        { tables with
          recruitment := some recruitment
          openings := openings
          schedule := schedule }
  | updated {operation openings shiftStart shiftEnd coverage} {recruitment : Recruitment}
      (manager : operation.byEmployee = false) (begun : tables.recruitment = some recruitment)
      (shift : shiftStart = recruitment.shiftStart ∧ shiftEnd = recruitment.shiftEnd ∨
        committedResponses tables = [])
      (covered : matchCommitments (bundleOpenings plant { tables with
          recruitment := some { recruitment with shiftStart := shiftStart, shiftEnd := shiftEnd }
          openings := openings })
        ((committedResponses tables).map commitmentOf) = some coverage) :
      Effect plant now tables operation { tables with
        recruitment := some { recruitment with shiftStart := shiftStart, shiftEnd := shiftEnd }
        openings := openings }

variable {recruitment : Recruitment} {tables next : Tables H} {now person : ℤ} {canVolunteer : Bool}
  {operation : Operation} {plant : Plant} {status : ResponseStatus}

theorem lockRecruitment_eq_ok :
    lockRecruitment tables = .ok recruitment ↔ tables.recruitment = some recruitment := by
  unfold lockRecruitment
  cases tables.recruitment with
  | none =>
      constructor
      · exact fun returned => by cases returned
      · exact fun found => by cases found
  | some locked => exact ⟨fun returned => congrArg some (Except.ok.inj returned),
      fun found => congrArg Except.ok (Option.some.inj found)⟩

theorem isOpen_of_requireOpen (begun : tables.recruitment = some recruitment)
    (open_ : ¬(recruitment.status ≠ .recruiting ∨ recruitment.responseDeadline ≤ now)) :
    IsOpen tables now recruitment := by
  obtain ⟨status, deadline⟩ := not_or.mp open_
  exact ⟨begun, not_not.mp status, not_le.mp deadline⟩

theorem map_fst_eq_ok {α β : Type} {result : Except Failure (α × β)} {value : α}
    (returned : result.map Prod.fst = .ok value) : ∃ other, result = .ok (value, other) := by
  cases result with
  | error failure => cases returned
  | ok pair => exact ⟨pair.2, congrArg Except.ok (Prod.ext (Except.ok.inj returned) rfl)⟩

theorem effect_recordLater
    (done : recordLater plant person canVolunteer now tables = .ok (next, status)) :
    Effect plant now tables operation next := by
  obtain ⟨recruitment, locked, rest⟩ := bind_eq_ok.mp done
  obtain ⟨open_, rest⟩ := raiseIf_bind_eq_ok.mp rest
  have isOpen := isOpen_of_requireOpen (lockRecruitment_eq_ok.mp locked) open_
  cases answered : tables.responses.get person with
  | none =>
      rw [answered] at rest
      obtain ⟨-, returned⟩ := raiseIf_bind_eq_ok.mp rest
      obtain ⟨rfl, -⟩ := Prod.mk.inj (Except.ok.inj returned)
      exact .answered isOpen (fun same => by cases same) fun existing found => by
        rw [answered] at found
        cases found
  | some existing =>
      rw [answered] at rest
      dsimp only at rest
      split at rest
      · obtain ⟨rfl, -⟩ := Prod.mk.inj (Except.ok.inj rest)
        exact .same
      · cases rest

theorem effect_decline (done : decline person now tables = .ok (next, status)) :
    Effect plant now tables operation next := by
  obtain ⟨recruitment, locked, rest⟩ := bind_eq_ok.mp done
  obtain ⟨open_, rest⟩ := raiseIf_bind_eq_ok.mp rest
  have isOpen := isOpen_of_requireOpen (lockRecruitment_eq_ok.mp locked) open_
  cases answered : tables.responses.get person with
  | none =>
      rw [answered] at rest
      obtain ⟨rfl, -⟩ := Prod.mk.inj (Except.ok.inj rest)
      exact .answered isOpen (fun same => by cases same) fun existing found => by
        rw [answered] at found
        cases found
  | some existing =>
      rw [answered] at rest
      dsimp only at rest
      split at rest
      · obtain ⟨rfl, -⟩ := Prod.mk.inj (Except.ok.inj rest)
        exact .same
      · split at rest
        · cases rest
        · rename_i later
          obtain ⟨rfl, -⟩ := Prod.mk.inj (Except.ok.inj rest)
          refine .answered isOpen (fun same => by cases same) fun other found => ?_
          obtain rfl := Option.some.inj (answered.symm.trans found)
          rw [not_not.mp later]
          exact fun same => by cases same

theorem effect_commit {start finish : ℕ}
    (done : commit plant person canVolunteer start finish now tables = .ok (next, status)) :
    Effect plant now tables operation next := by
  obtain ⟨recruitment, locked, rest⟩ := bind_eq_ok.mp done
  obtain ⟨open_, rest⟩ := raiseIf_bind_eq_ok.mp rest
  have isOpen := isOpen_of_requireOpen (lockRecruitment_eq_ok.mp locked) open_
  obtain ⟨_, checked, rest⟩ := bind_eq_ok.mp rest
  obtain ⟨halves, checked⟩ := raiseIf_bind_eq_ok.mp checked
  obtain ⟨startHalf, finishHalf⟩ := not_or.mp halves
  have inside := raiseIf_eq_ok.mp checked
  obtain ⟨repeated, -, rest⟩ := bind_eq_ok.mp rest
  split at rest
  · obtain ⟨rfl, -⟩ := Prod.mk.inj (Except.ok.inj rest)
    exact .same
  · obtain ⟨fits, returned⟩ := raiseIf_bind_eq_ok.mp rest
    obtain ⟨rfl, -⟩ := Prod.mk.inj (Except.ok.inj returned)
    have some_ := not_or.mp fits
    rw [Option.isNone_iff_eq_none] at some_
    obtain ⟨coverage, covered⟩ := Option.ne_none_iff_exists'.mp some_.2
    exact .committed isOpen (not_not.mp startHalf) (not_not.mp finishHalf) (by omega) covered

theorem effect_cancel {actor reason : Option String}
    (isOpen : operation.byEmployee = true → ∃ recruitment, IsOpen tables now recruitment)
    (done : cancel person now actor reason tables = .ok (next, status)) :
    Effect plant now tables operation next := by
  unfold cancel at done
  split at done
  · cases done
  · rename_i existing found
    split at done
    · obtain ⟨rfl, -⟩ := Prod.mk.inj (Except.ok.inj done)
      exact .same
    · split at done
      · cases done
      · obtain ⟨rfl, -⟩ := Prod.mk.inj (Except.ok.inj done)
        exact .cancelled found isOpen

theorem effect_activate {isSaturday : Bool} {holiday : Option (ℤ × String)} {asked : Activation}
    (manager : operation.byEmployee = false)
    (done : activate plant isSaturday holiday asked now tables = .ok next) :
    Effect plant now tables operation next := by
  obtain ⟨-, rest⟩ := raiseIf_bind_eq_ok.mp done
  obtain ⟨-, rest⟩ := raiseIf_bind_eq_ok.mp rest
  obtain ⟨-, rest⟩ := raiseIf_bind_eq_ok.mp rest
  obtain ⟨-, rest⟩ := raiseIf_bind_eq_ok.mp rest
  obtain ⟨counts, -, rest⟩ := bind_eq_ok.mp rest
  obtain ⟨-, rest⟩ := raiseIf_bind_eq_ok.mp rest
  cases begun : tables.recruitment with
  | some existing =>
      rw [begun] at rest
      obtain ⟨-, returned⟩ := raiseIf_bind_eq_ok.mp rest
      exact Except.ok.inj returned ▸ .same
  | none =>
      rw [begun] at rest
      obtain ⟨schedule, -, returned⟩ := bind_eq_ok.mp rest
      exact Except.ok.inj returned ▸ .activated manager begun

theorem effect_updateOpenings {requestedCounts : SortedMap ℤ ℤ} {shiftStart shiftEnd : ℕ}
    (manager : operation.byEmployee = false)
    (done : updateOpenings plant requestedCounts shiftStart shiftEnd tables = .ok next) :
    Effect plant now tables operation next := by
  obtain ⟨-, rest⟩ := raiseIf_bind_eq_ok.mp done
  obtain ⟨counts, -, rest⟩ := bind_eq_ok.mp rest
  obtain ⟨recruitment, locked, rest⟩ := bind_eq_ok.mp rest
  obtain ⟨-, rest⟩ := raiseIf_bind_eq_ok.mp rest
  obtain ⟨hours, rest⟩ := raiseIf_bind_eq_ok.mp rest
  obtain ⟨-, rest⟩ := raiseIf_bind_eq_ok.mp rest
  obtain ⟨-, rest⟩ := raiseIf_bind_eq_ok.mp rest
  obtain ⟨fits, returned⟩ := raiseIf_bind_eq_ok.mp rest
  rw [Option.isNone_iff_eq_none] at fits
  obtain ⟨coverage, covered⟩ := Option.ne_none_iff_exists'.mp fits
  refine Except.ok.inj returned ▸ .updated manager (lockRecruitment_eq_ok.mp locked) ?_ covered
  rcases not_and_or.mp hours with same | none
  · obtain ⟨sameStart, sameEnd⟩ := not_or.mp same
    exact .inl ⟨not_not.mp sameStart, not_not.mp sameEnd⟩
  · exact .inr (not_not.mp none)

theorem effect_perform (done : operation.perform plant now tables = .ok next) :
    Effect plant now tables operation next := by
  cases operation with
  | recordLater person canVolunteer =>
      obtain ⟨status, done⟩ := map_fst_eq_ok done
      exact effect_recordLater done
  | decline person =>
      obtain ⟨status, done⟩ := map_fst_eq_ok done
      exact effect_decline done
  | commit person canVolunteer start finish =>
      obtain ⟨status, done⟩ := map_fst_eq_ok done
      exact effect_commit done
  | cancelByEmployee person =>
      obtain ⟨status, done⟩ := map_fst_eq_ok done
      obtain ⟨recruitment, locked, rest⟩ := bind_eq_ok.mp done
      obtain ⟨open_, rest⟩ := raiseIf_bind_eq_ok.mp rest
      have isOpen := isOpen_of_requireOpen (lockRecruitment_eq_ok.mp locked) open_
      exact effect_cancel (fun _ => ⟨recruitment, isOpen⟩) rest
  | cancelByManager person actor reason =>
      obtain ⟨status, done⟩ := map_fst_eq_ok done
      obtain ⟨-, rest⟩ := raiseIf_bind_eq_ok.mp done
      obtain ⟨recruitment, -, rest⟩ := bind_eq_ok.mp rest
      exact effect_cancel (fun employee => by cases employee) rest
  | cancelRecruitment actor =>
      obtain ⟨committed, done⟩ := map_fst_eq_ok done
      obtain ⟨recruitment, locked, rest⟩ := bind_eq_ok.mp done
      split at rest
      · obtain ⟨rfl, -⟩ := Prod.mk.inj (Except.ok.inj rest)
        exact .same
      · obtain ⟨rfl, -⟩ := Prod.mk.inj (Except.ok.inj rest)
        exact .moved rfl (lockRecruitment_eq_ok.mp locked) ⟨rfl, rfl⟩ fun same => by cases same
  | activate isSaturday holiday asked => exact effect_activate rfl done
  | updateOpenings requestedCounts shiftStart shiftEnd => exact effect_updateOpenings rfl done
  | closeDue =>
      obtain rfl := Except.ok.inj done
      unfold closeDue
      split
      · exact .same
      · rename_i recruitment begun
        split
        · exact .moved rfl begun ⟨rfl, rfl⟩ fun same => by cases same
        · exact .same
  | markPublished =>
      obtain ⟨recruitment, locked, rest⟩ := bind_eq_ok.mp done
      split at rest
      · exact Except.ok.inj rest ▸ .same
      · obtain ⟨-, returned⟩ := raiseIf_bind_eq_ok.mp rest
        refine Except.ok.inj returned ▸ ?_
        exact .moved rfl (lockRecruitment_eq_ok.mp locked) ⟨rfl, rfl⟩ fun same => by cases same

/-! ## The invariant -/

/-- Nobody answers before a round begins, and the committed people fit the openings with what
they were eligible for when they committed. -/
structure Inv (plant : Plant) (tables : Tables H) : Prop where
  new : tables.recruitment = none → ∀ person, tables.responses.get person = none
  placeable : Placeable (bundleOpenings plant tables)
    ((committedResponses tables).map commitmentOf)
  eligible : ∀ person response, Committed tables person response →
    ∀ wcId ∈ response.eligibleWcIds, EligibleFor plant person wcId
  windows : ∀ recruitment, tables.recruitment = some recruitment →
    ∀ person response, Committed tables person response → FitsShift recruitment response

theorem mem_committedResponses {entry : ℤ × Response} :
    entry ∈ committedResponses tables ↔ Committed tables entry.1 entry.2 := by
  unfold committedResponses Committed
  rw [List.mem_filter, SortedMap.get_eq_some_iff, decide_eq_true_iff]

theorem nodup_committedResponses (tables : Tables H) :
    ((committedResponses tables).map Prod.fst).Nodup :=
  List.pairwise_map.mpr ((tables.responses.sorted.filter _).imp fun below => below.ne)

theorem placeable_of_subset {openings : List Opening} {few many : List Commitment}
    (placeable : Placeable openings many) (subset : few ⊆ many) : Placeable openings few := by
  obtain ⟨place, placed, apart⟩ := placeable
  exact ⟨place, fun item member => placed item (subset member),
    fun first firstMember second secondMember =>
      apart first (subset firstMember) second (subset secondMember)⟩

/-- Fewer commitments, and the same openings. -/
theorem placeable_of_fewer (placeable : Placeable (bundleOpenings plant tables)
      ((committedResponses tables).map commitmentOf)) (openings : next.openings = tables.openings)
    (fewer : ∀ person response, Committed next person response → Committed tables person response) :
    Placeable (bundleOpenings plant next) ((committedResponses next).map commitmentOf) := by
  rw [show bundleOpenings plant next = bundleOpenings plant tables by
    rw [bundleOpenings, openings, bundleOpenings]]
  refine placeable_of_subset placeable (List.map_subset _ fun entry member => ?_)
  exact mem_committedResponses.mpr (fewer _ _ (mem_committedResponses.mp member))

theorem eligibleFor_of_mem {wcId : ℤ}
    (member : wcId ∈ eligibleWcIdsForPerson plant canVolunteer person
      (bundleOpenings plant tables)) : EligibleFor plant person wcId := by
  unfold eligibleWcIdsForPerson at member
  split at member
  · obtain ⟨opening, offered, rfl⟩ := List.mem_map.mp (List.mem_toFinset.mp member)
    obtain ⟨listed, passed⟩ := List.mem_filter.mp offered
    have skilled := of_decide_eq_true passed
    obtain ⟨entry, -, rfl⟩ := List.mem_map.mp listed
    exact skilled
  · cases member

variable {response : Response}

/-- The response of another person stays. -/
theorem committed_insertResponse {other : ℤ} {availability : Option (ℕ × ℕ)}
    {eligibleWcIds : Finset ℤ}
    (committed : Committed (insertResponse tables person status now availability eligibleWcIds)
      other response) :
    Committed tables other response ∧ other ≠ person ∨
      other = person ∧ status = .committed ∧ response.eligibleWcIds = eligibleWcIds ∧
        response.availabilityStart = availability.map Prod.fst ∧
        response.availabilityEnd = availability.map Prod.snd := by
  obtain ⟨found, isCommitted⟩ := committed
  change (tables.responses.set person _).get other = some response at found
  rw [SortedMap.get_set] at found
  by_cases same : other = person
  · rw [if_pos same] at found
    refine .inr ⟨same, ?_⟩
    cases before : tables.responses.get person with
    | none | some existing =>
        rw [before] at found
        obtain rfl := Option.some.inj found
        exact ⟨isCommitted, rfl, rfl, rfl⟩
  · rw [if_neg same] at found
    exact .inl ⟨⟨found, isCommitted⟩, same⟩

theorem committed_of_answered {other : ℤ} (answer : status ≠ .committed)
    (committed : Committed (insertResponse tables person status now none ∅) other response) :
    Committed tables other response :=
  (committed_insertResponse committed).elim And.left fun own => absurd own.2.1 answer

theorem committed_of_cancelled {other : ℤ} {written : Response}
    (cancelled : written.status = .cancelled)
    (committed : Committed { tables with responses := tables.responses.set person written }
      other response) : Committed tables other response := by
  obtain ⟨found, isCommitted⟩ := committed
  rw [SortedMap.get_set] at found
  split at found
  · obtain rfl := Option.some.inj found
    rw [cancelled] at isCommitted
    cases isCommitted
  · exact ⟨found, isCommitted⟩

theorem inv_committed {start finish : ℕ} {coverage : Coverage} (inv : Inv plant tables)
    (isOpen : IsOpen tables now recruitment) (startHalf : OnHalfHour start)
    (finishHalf : OnHalfHour finish)
    (inside : recruitment.shiftStart ≤ start ∧ start < finish ∧ finish ≤ recruitment.shiftEnd)
    (covered : coverageWithCandidate plant tables person
      (eligibleWcIdsForPerson plant canVolunteer person (bundleOpenings plant tables)) =
        some coverage) :
    Inv plant (insertResponse tables person .committed now (some (start, finish))
      (eligibleWcIdsForPerson plant canVolunteer person (bundleOpenings plant tables))) where
  new := fun none => absurd (isOpen.1.symm.trans none) (Option.some_ne_none _)
  placeable := by
    have nodup : ((((committedResponses tables).filter fun entry : ℤ × Response =>
        entry.1 ≠ person).map commitmentOf ++ [Commitment.mk person (eligibleWcIdsForPerson plant
          canVolunteer person (bundleOpenings plant tables))]).map Commitment.personId).Nodup := by
      rw [List.map_append, List.map_map]
      refine List.Nodup.append ?_ (List.nodup_singleton _) ?_
      · exact (nodup_committedResponses tables).sublist
          (List.Sublist.map Prod.fst List.filter_sublist)
      · intro other member own
        obtain ⟨entry, kept, rfl⟩ := List.mem_map.mp member
        have apart := of_decide_eq_true (List.mem_filter.mp kept).2
        exact apart (List.mem_singleton.mp own)
    refine placeable_of_subset (placeable_of_matchCommitments nodup covered) ?_
    intro item member
    obtain ⟨entry, committed, rfl⟩ := List.mem_map.mp member
    rcases committed_insertResponse (mem_committedResponses.mp committed) with
      ⟨before, apart⟩ | ⟨same, -, eligible, -⟩
    · refine List.mem_append_left _ (List.mem_map_of_mem (List.mem_filter.mpr ⟨?_, ?_⟩))
      · exact mem_committedResponses.mpr before
      · exact decide_eq_true apart
    · refine List.mem_append_right _ (List.mem_singleton.mpr ?_)
      rw [commitmentOf, same, eligible]
  eligible := by
    intro other response committed wcId member
    rcases committed_insertResponse committed with ⟨before, -⟩ | ⟨rfl, -, eligible, -⟩
    · exact inv.eligible other response before wcId member
    · exact eligibleFor_of_mem (eligible ▸ member)
  windows := by
    intro later begun other response committed
    obtain rfl := Option.some.inj (isOpen.1.symm.trans begun)
    rcases committed_insertResponse committed with ⟨before, -⟩ | ⟨-, -, -, offeredStart, offeredEnd⟩
    · exact inv.windows _ isOpen.1 other response before
    · exact ⟨start, finish, offeredStart, offeredEnd, startHalf, finishHalf, inside⟩

theorem inv_effect (inv : Inv plant tables) (effect : Effect plant now tables operation next) :
    Inv plant next := by
  cases effect with
  | same => exact inv
  | answered isOpen answer before =>
      exact {
        new := fun none => absurd (isOpen.1.symm.trans none) (Option.some_ne_none _)
        placeable := placeable_of_fewer inv.placeable rfl fun _ _ => committed_of_answered answer
        eligible := fun person response committed =>
          inv.eligible person response (committed_of_answered answer committed)
        windows := fun recruitment begun person response committed =>
          inv.windows recruitment begun person response (committed_of_answered answer committed) }
  | committed isOpen startHalf finishHalf inside covered =>
      exact inv_committed inv isOpen startHalf finishHalf inside covered
  | cancelled found isOpen =>
      exact {
        new := fun none person => by
          rw [inv.new none] at found
          cases found
        placeable := placeable_of_fewer inv.placeable rfl fun _ _ => committed_of_cancelled rfl
        eligible := fun person response committed =>
          inv.eligible person response (committed_of_cancelled rfl committed)
        windows := fun recruitment begun person response committed =>
          inv.windows recruitment begun person response (committed_of_cancelled rfl committed) }
  | moved manager begun shift left =>
      exact {
        new := fun none => absurd none (Option.some_ne_none _)
        placeable := placeable_of_fewer inv.placeable rfl fun _ _ => id
        eligible := inv.eligible
        windows := by
          intro later same person response committed
          obtain rfl := Option.some.inj same
          unfold FitsShift
          rw [shift.1, shift.2]
          exact inv.windows _ begun person response committed }
  | activated manager new =>
      have nobody : ∀ person response, ¬Committed tables person response := by
        intro person response committed
        have found := committed.1
        rw [inv.new new person] at found
        cases found
      exact {
        new := fun none => absurd none (Option.some_ne_none _)
        placeable := ⟨fun _ => (0, 0), fun item member => by
            obtain ⟨entry, committed, -⟩ := List.mem_map.mp member
            exact absurd (mem_committedResponses.mp committed) (nobody _ _),
          fun first member => by
            obtain ⟨entry, committed, -⟩ := List.mem_map.mp member
            exact absurd (mem_committedResponses.mp committed) (nobody _ _)⟩
        eligible := fun person response committed => absurd committed (nobody _ _)
        windows := fun _ _ person response committed => absurd committed (nobody _ _) }
  | updated manager begun shift covered =>
      exact {
        new := fun none => absurd none (Option.some_ne_none _)
        placeable := placeable_of_matchCommitments (by
          rw [List.map_map]
          exact nodup_committedResponses tables) covered
        eligible := inv.eligible
        windows := by
          intro later same person response committed
          obtain rfl := Option.some.inj same
          rcases shift with ⟨rfl, rfl⟩ | none
          · exact inv.windows _ begun person response committed
          · have member := @mem_committedResponses _ tables (person, response) |>.mpr committed
            rw [none] at member
            cases member }

/-! ## Runs -/

theorem inv_step {state next : State H} {action : ℤ × Operation} (inv : Inv plant state.tables)
    (taken : step plant state action = some next) : Inv plant next.tables := by
  obtain ⟨-, taken⟩ := Option.ite_none_left_eq_some.mp taken
  obtain rfl := Option.some.inj taken
  cases done : action.2.perform plant action.1 state.tables with
  | error failure => exact inv
  | ok tables => exact inv_effect inv (effect_perform done)

/-- A step that does not leave the tables as they are has an effect on them. -/
theorem tables_step {state next : State H} {action : ℤ × Operation}
    (taken : step plant state action = some next) :
    next.tables = state.tables ∨ Effect plant action.1 state.tables action.2 next.tables := by
  obtain ⟨-, taken⟩ := Option.ite_none_left_eq_some.mp taken
  obtain rfl := Option.some.inj taken
  cases done : action.2.perform plant action.1 state.tables with
  | error failure => exact .inl rfl
  | ok tables => exact .inr (effect_perform done)

/-- A place of a listed opening is one of those requested. -/
theorem requested_of_mem_slotsOf {slot : Slot}
    (member : slot ∈ slotsOf (bundleOpenings plant tables)) :
    ∃ count, tables.openings.get slot.1 = some count ∧ slot.2 < count := by
  obtain ⟨opening, listed, place⟩ := List.mem_flatMap.mp member
  obtain ⟨index, inside, rfl⟩ := List.mem_map.mp place
  obtain ⟨entry, kept, rfl⟩ := List.mem_map.mp ((Ranking.mem_sortBy Opening.wcId).mp listed)
  exact ⟨entry.2, SortedMap.get_eq_some_iff.mpr (List.mem_filter.mp kept).1,
    List.mem_range.mp inside⟩

theorem placed_of_inv (inv : Inv plant tables) :
    ∃ place : ℤ → Slot,
      (∀ person response, Committed tables person response →
        EligibleFor plant person (place person).1 ∧
        ∃ count, tables.openings.get (place person).1 = some count ∧ (place person).2 < count) ∧
      ∀ first second one other, Committed tables first one → Committed tables second other →
        place first = place second → first = second := by
  obtain ⟨place, placed, apart⟩ := inv.placeable
  have listed : ∀ {person response}, Committed tables person response →
      commitmentOf (person, response) ∈ (committedResponses tables).map commitmentOf :=
    fun committed => List.mem_map_of_mem (mem_committedResponses.mpr committed)
  refine ⟨place, fun person response committed => ?_, fun first second one other isOne isOther => ?_⟩
  · obtain ⟨inSlots, eligible⟩ := placed _ (listed committed)
    exact ⟨inv.eligible person response committed _ eligible, requested_of_mem_slotsOf inSlots⟩
  · exact apart _ (listed isOne) _ (listed isOther)

theorem unchanged_of_deadline (begun : tables.recruitment = some recruitment)
    (due : recruitment.responseDeadline ≤ now) (employee : operation.byEmployee = true)
    (effect : Effect plant now tables operation next) : next = tables := by
  have notOpen : ∀ later, ¬IsOpen tables now later := by
    intro later isOpen
    obtain rfl := Option.some.inj (begun.symm.trans isOpen.1)
    exact absurd isOpen.2.2 (not_lt.mpr due)
  cases effect with
  | same => rfl
  | answered isOpen _ _ | committed isOpen _ _ _ _ => exact absurd isOpen (notOpen _)
  | cancelled _ isOpen => exact (isOpen employee).elim fun later open_ => absurd open_ (notOpen later)
  | moved manager _ _ _ | activated manager _
  | updated manager _ _ _ => rw [manager] at employee; cases employee

theorem closed_of_effect (begun : tables.recruitment = some recruitment)
    (left : recruitment.status ≠ .recruiting) (effect : Effect plant now tables operation next) :
    (∃ later, next.recruitment = some later ∧ later.status ≠ .recruiting) ∧
      ∀ person response, Committed next person response → Committed tables person response := by
  have notOpen : ∀ later, ¬IsOpen tables now later := by
    intro later isOpen
    obtain rfl := Option.some.inj (begun.symm.trans isOpen.1)
    exact left isOpen.2.1
  cases effect with
  | same => exact ⟨⟨recruitment, begun, left⟩, fun _ _ => id⟩
  | answered isOpen _ _ | committed isOpen _ _ _ _ => exact absurd isOpen (notOpen _)
  | cancelled _ _ => exact ⟨⟨recruitment, begun, left⟩, fun _ _ => committed_of_cancelled rfl⟩
  | moved _ _ _ leaves => exact ⟨⟨_, rfl, leaves⟩, fun _ _ => id⟩
  | activated _ new => exact absurd (begun.symm.trans new) (Option.some_ne_none recruitment)
  | updated _ same _ _ =>
      obtain rfl := Option.some.inj (begun.symm.trans same)
      exact ⟨⟨_, rfl, left⟩, fun _ _ => id⟩

theorem sound_of_inv {plant : Plant} {state : State H} (inv : Inv plant state.tables) :
    Sound plant state where
  placed := placed_of_inv inv
  windows := inv.windows
  errors := by
    intro now operation failure raised next taken
    obtain ⟨-, taken⟩ := Option.ite_none_left_eq_some.mp taken
    obtain rfl := Option.some.inj taken
    rw [raised]
    rfl
  deadline := by
    intro now operation recruitment begun due employee next taken
    rcases tables_step taken with same | effect
    · exact same
    · exact unchanged_of_deadline begun due employee effect
  closed := by
    intro recruitment begun left action next taken
    rcases tables_step taken with same | effect
    · rw [same]
      exact ⟨⟨recruitment, begun, left⟩, fun _ _ => id⟩
    · exact closed_of_effect begun left effect

theorem commitments_placeable (plant : Plant) (now : ℤ) (schedule : Option (Stored H))
    (state : State H) (reachable : Reachable (State.initial now schedule) (step plant)
      (fun _ _ => True) state) : Sound plant state := by
  apply sound_of_inv
  refine reachable.invariant ?_ fun _ _ _ inv _ taken => inv_step inv taken
  exact {
    new := fun _ _ => rfl
    placeable := ⟨fun _ => (0, 0), List.forall_mem_nil _, List.forall_mem_nil _⟩
    eligible := fun _ _ committed => by cases committed.1
    windows := fun _ begun => by cases begun }

/-- Two work centers that ask for one skill each; person 1 has both skills, person 2 only the
first. -/
def twoSkills : Plant where
  wcName := fun wcId => if wcId = 1 then "Saw" else "Dock"
  requiredSkills := fun wcId => if wcId = 1 then ["Saw"] else ["Forklift"]
  level := fun person skill => if person = 1 ∨ skill = "Saw" then 1 else 0
  roster := ⟨["Saw", "Dock"], [], []⟩

def hour : ℕ := 3600000000

/-- A round with one place at each work center, and a commitment that moves the person before. -/
def flexibleFirst : List (ℤ × Operation) :=
  [(0, .activate true none
      { shiftStart := 6 * hour
        shiftEnd := 12 * hour
        responseDeadline := 100
        requestedCounts := SortedMap.ofList [(1, 1), (2, 1)]
        actor := none
        dayKind := .saturday
        eventName := none
        holidayOdooId := none }),
    (1, .commit 1 true (6 * hour) (12 * hour)),
    (2, .commit 2 true (7 * hour) (9 * hour)),
    (100, .closeDue), (101, .decline 2)]

theorem commitments_placeable_flexibleFirst :
    ∃ state : State Unit, run (step twoSkills) (State.initial 0 none) flexibleFirst = some state ∧
      (committedResponses state.tables).map Prod.fst = [1, 2] ∧ Sound twoSkills state := by
  obtain ⟨state, ran, committed⟩ : ∃ state : State Unit,
      run (step twoSkills) (State.initial 0 none) flexibleFirst = some state ∧
        (committedResponses state.tables).map Prod.fst = [1, 2] := ⟨_, rfl, by decide⟩
  refine ⟨state, ran, committed, ?_⟩
  apply commitments_placeable twoSkills 0 none
  exact Reachable.initial.run (fun _ _ _ => trivial) ran

end PlantManager.Saturday

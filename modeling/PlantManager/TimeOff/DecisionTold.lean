import PlantManager.TimeOff.DecisionNotices

/-! # Which decisions are told

Each decision that a poll observes is shown at the next sign-in that is answered, unless its
request already has a notification of the kind that was shown, that is about other days, or that is
not the last (`TimeOff.Notices.told_of_untold`). A decision that is reached again after
its notification was acknowledged is never told (`TimeOff.Notices.approvedAgain`).
-/

namespace PlantManager.TimeOff.Notices

open LocalRecord Transition

variable {site : Site} {world next : World} {action : Action} {decision : Kind × Captured}

/-! ## The claim -/

/-- A notification of a decision, about the days that were decided. -/
structure Tells (site : Site) (decision : Kind × Captured) (notice : Notification) : Prop where
  ofRequest : notice.OfRequest site
  kind : notice.kind = .timeOff decision.1
  person : notice.personOdooId = decision.2.personOdooId
  dateFrom : notice.leaveDateFrom = some decision.2.dateFrom
  dateTo : notice.leaveDateTo = some decision.2.dateTo

instance (site : Site) (decision : Kind × Captured) (notice : Notification) :
    Decidable (Tells site decision notice) :=
  decidable_of_iff
    (notice.timeOffRequestId = some site.requestId ∧ notice.kind = .timeOff decision.1 ∧
      notice.personOdooId = decision.2.personOdooId ∧
      notice.leaveDateFrom = some decision.2.dateFrom ∧
      notice.leaveDateTo = some decision.2.dateTo)
    ⟨fun ⟨ofRequest, kind, person, dateFrom, dateTo⟩ => ⟨ofRequest, kind, person, dateFrom, dateTo⟩,
      fun tells => ⟨tells.ofRequest, tells.kind, tells.person, tells.dateFrom, tells.dateTo⟩⟩

/-- The notifications of the request. -/
def ofRequest (site : Site) (notices : List Notification) : List Notification :=
  notices.filter fun notice => notice.OfRequest site

/-- The polls find a leave that is not over, the notifications are on, and neither a local record
nor a cancellation by the employee stands in the mirror. -/
def Ordinary (site : Site) (world : World) : Action → Prop
  | .observe leave enabled today =>
      enabled = true ∧ (∀ stored ∈ mirror site.shift leave, today ≤ stored.2.dateTo) ∧
        ∀ existing ∈ world.row, existing.localRecord = false ∧ existing.state ≠ .draftCancel
  | _ => True

/-- What the request already has of the kind of an observed decision was not shown, is about the
same days, and is the last notification of the request. -/
def Untold (site : Site) (world : World) : Action → Prop
  | .observe leave _ _ =>
      ∀ decision ∈ world.decided site leave, ∀ notice ∈ ofRequest site world.notices,
        notice.kind = .timeOff decision.1 →
          notice.presentedAt = none ∧ Tells site decision notice ∧
            (ofRequest site world.notices).getLast? = some notice
  | _ => True

/-- No decision is observed. -/
def Undecided (site : Site) (world : World) : Action → Prop
  | .observe leave _ _ => world.decided site leave = none
  | _ => True

/-- No sign-in of the employee is followed by an acknowledgement. -/
def Unanswered (person : ℤ) : List Action → Prop
  | [] => True
  | .signIn signed _ :: rest =>
      (signed = person → ∀ ids now, Action.acknowledge person ids now ∉ rest) ∧
        Unanswered person rest
  | _ :: rest => Unanswered person rest

/-- From an observed decision on until a sign-in is answered, every sign-in shows a notification of
the decision, and as the last of the request while no other decision is observed. -/
def Told (site : Site) (initial : World) (actions : List Action) : Prop :=
  ∀ before leave enabled today between later,
    actions = before ++ .observe leave enabled today :: (between ++ later) →
    ∀ world ∈ run (step site) initial before,
    ∀ observed ∈ step site world (.observe leave enabled today),
    ∀ reached ∈ run (step site) observed between,
    ∀ decision ∈ world.decided site leave, Unanswered decision.2.personOdooId between →
      (∃ notice ∈ listUnacknowledged decision.2.personOdooId reached.notices,
        Tells site decision notice) ∧
      (Permitted (step site) (Undecided site) observed between →
        ∃ notice, Tells site decision notice ∧
          (ofRequest site
            (listUnacknowledged decision.2.personOdooId reached.notices)).getLast? = some notice)

/-- What is acknowledged is not shown again. -/
def NeverAgain (site : Site) (initial : World) (actions : List Action) : Prop :=
  ∀ before between later, actions = before ++ (between ++ later) →
    ∀ world ∈ run (step site) initial before, ∀ reached ∈ run (step site) world between,
    ∀ notice ∈ world.notices, notice.acknowledgedAt ≠ none →
    ∀ person, ∀ shown ∈ listUnacknowledged person reached.notices, shown.id ≠ notice.id

/-! ## Stamps -/

/-- What an action writes into a notification that exists. -/
def stamp : Action → Notification → Notification
  | .signIn person now => present person now
  | .acknowledge person ids now => acknowledgePresented person ids now
  | _ => id

/-- A stamp changes the two times only, and takes none back. -/
structure Stamped (before after : Notification) : Prop where
  same : { after with
    presentedAt := before.presentedAt, acknowledgedAt := before.acknowledgedAt } = before
  presented : before.presentedAt ≠ none → after.presentedAt ≠ none
  acknowledged : before.acknowledgedAt ≠ none → after.acknowledgedAt ≠ none

theorem stamped (action : Action) (notice : Notification) :
    Stamped notice (stamp action notice) := by
  cases action with
  | signIn person now =>
      change Stamped notice (present person now notice)
      unfold present
      split
      · exact ⟨rfl, fun _ => Option.some_ne_none _, fun kept => kept⟩
      · exact ⟨rfl, fun kept => kept, fun kept => kept⟩
  | acknowledge person ids now =>
      change Stamped notice (acknowledgePresented person ids now notice)
      unfold acknowledgePresented
      split
      · exact ⟨rfl, fun kept => kept, fun _ => Option.some_ne_none _⟩
      · exact ⟨rfl, fun kept => kept, fun kept => kept⟩
  | observe leave enabled today | other notice => exact ⟨rfl, fun kept => kept, fun kept => kept⟩

@[simp]
theorem stamp_id (action : Action) (notice : Notification) : (stamp action notice).id = notice.id :=
  (congrArg Notification.id (stamped action notice).same :)

@[simp]
theorem stamp_ofRequest (action : Action) (notice : Notification) :
    (stamp action notice).OfRequest site ↔ notice.OfRequest site :=
  iff_of_eq (congrArg (Notification.OfRequest site) (stamped action notice).same :)

variable {notice : Notification}

theorem Tells.stamp (tells : Tells site decision notice) (action : Action) :
    Tells site decision (stamp action notice) where
  ofRequest := (stamp_ofRequest action notice).mpr tells.ofRequest
  kind := (congrArg Notification.kind (stamped action notice).same :).trans tells.kind
  person := (congrArg Notification.personOdooId (stamped action notice).same :).trans tells.person
  dateFrom :=
    (congrArg Notification.leaveDateFrom (stamped action notice).same :).trans tells.dateFrom
  dateTo := (congrArg Notification.leaveDateTo (stamped action notice).same :).trans tells.dateTo

/-- Only what was shown is acknowledged. -/
theorem acknowledgedAt_stamp (unacknowledged : notice.acknowledgedAt = none)
    (unshown : notice.presentedAt = none ∨
      ∀ ids now, action ≠ .acknowledge notice.personOdooId ids now) :
    (stamp action notice).acknowledgedAt = none := by
  cases action with
  | acknowledge person ids now =>
      change (acknowledgePresented person ids now notice).acknowledgedAt = none
      unfold acknowledgePresented
      rw [if_neg]
      · exact unacknowledged
      · rintro ⟨-, rfl, shown, -⟩
        exact unshown.elim shown fun others => others ids now rfl
  | signIn person now =>
      change (present person now notice).acknowledgedAt = none
      unfold present
      split <;> exact unacknowledged
  | observe leave enabled today | other notice => exact unacknowledged

theorem presentedAt_stamp (unshown : notice.presentedAt = none)
    (others : ∀ now, action ≠ .signIn notice.personOdooId now) :
    (stamp action notice).presentedAt = none := by
  cases action with
  | signIn person now =>
      change (present person now notice).presentedAt = none
      unfold present
      rw [if_neg]
      · exact unshown
      · rintro ⟨rfl, -⟩
        exact others now rfl
  | acknowledge person ids now =>
      change (acknowledgePresented person ids now notice).presentedAt = none
      unfold acknowledgePresented
      split <;> exact unshown
  | observe leave enabled today | other notice => exact unshown

/-! ## What an action adds -/

theorem createTimeOffNotification_notices (site : Site) (world : World) (kind : Kind) (row : Row) :
    (∃ notice ∈ ofRequest site world.notices, notice.kind = .timeOff kind) ∧
        (createTimeOffNotification site world kind row).notices = world.notices ∨
      (∀ notice ∈ ofRequest site world.notices, notice.kind ≠ .timeOff kind) ∧
        (createTimeOffNotification site world kind row).notices =
          world.notices ++ [notification site world.nextId kind row] := by
  by_cases stored : ∃ notice ∈ world.notices, notice.OfRequest site ∧ notice.kind = .timeOff kind
  · refine .inl ⟨?_, if_pos stored⟩
    obtain ⟨notice, member, own, same⟩ := stored
    exact ⟨notice, List.mem_filter.mpr ⟨member, by simpa using own⟩, same⟩
  · refine .inr ⟨fun notice member same => stored ⟨notice, ?_⟩, if_neg stored⟩
    obtain ⟨member, own⟩ := List.mem_filter.mp member
    exact ⟨member, by simpa using own, same⟩

theorem maybeNotifyResolution_cases (site : Site) (enabled : Bool) (today : ℤ) (world : World)
    (old : RequestState) (row : Row) {state : RequestState} (same : row.state = state) :
    ((maybeNotifyResolution site enabled today world old row).notices = world.notices ∧
        (maybeNotifyResolution site enabled today world old row).nextId = world.nextId) ∨
      ∃ kind, resolutionKind state = some kind ∧
        (maybeNotifyResolution site enabled today world old row).notices =
          (createTimeOffNotification site world kind row).notices ∧
        (maybeNotifyResolution site enabled today world old row).nextId = world.nextId + 1 := by
  unfold maybeNotifyResolution
  rw [same]
  cases enabled with
  | false => exact .inl ⟨rfl, rfl⟩
  | true =>
      cases resolutionKind state with
      | none => exact .inl ⟨rfl, rfl⟩
      | some kind =>
          by_cases barred : old = .draftCancel ∨ row.dateTo < today
          · simp only [if_true, if_pos barred]
            exact .inl ⟨trivial, trivial⟩
          · simp only [if_true, if_neg barred]
            exact .inr ⟨kind, rfl, rfl, rfl⟩

/-- A poll raises nothing, or the notification of the decision that it observes. -/
theorem upsertOne_cases (site : Site) (world : World) (leave : Leave) (enabled : Bool) (today : ℤ) :
    ((upsertOne site world leave enabled today).notices = world.notices ∧
        (upsertOne site world leave enabled today).nextId = world.nextId) ∨
      ∃ decision ∈ world.decided site leave, ∃ row : Row, row.toCaptured = decision.2 ∧
        (upsertOne site world leave enabled today).notices =
          (createTimeOffNotification site world decision.1 row).notices ∧
        (upsertOne site world leave enabled today).nextId = world.nextId + 1 := by
  unfold upsertOne World.decided
  cases mirror site.shift leave with
  | none => exact .inl ⟨rfl, rfl⟩
  | some stored =>
      obtain ⟨state, captured⟩ := stored
      cases world.row with
      | none =>
          by_cases approved : state = .validate
          · simp only [if_pos approved]
            refine (maybeNotifyResolution_cases site enabled today _ .draft _ rfl).imp (fun same => same) ?_
            rintro ⟨kind, resolved, same⟩
            rw [approved] at resolved
            obtain rfl := Option.some.inj resolved
            exact ⟨_, rfl, _, rfl, same⟩
          · simp only [if_neg approved]
            exact .inl ⟨trivial, trivial⟩
      | some existing =>
          by_cases kept : (existing.localRecord || unchanged existing state captured) = true
          · simp only [if_pos kept]
            exact .inl ⟨trivial, trivial⟩
          · by_cases same : existing.state = state
            · simp only [if_neg kept, if_pos same]
              exact .inl ⟨trivial, trivial⟩
            · simp only [if_neg kept, if_neg same]
              refine (maybeNotifyResolution_cases site enabled today _ existing.state _ rfl).imp (fun same => same) ?_
              rintro ⟨kind, resolved, same⟩
              exact ⟨(kind, captured), by simp [resolved], _, rfl, same⟩

/-- On an ordinary poll the notification of the decision is raised. -/
theorem upsertOne_decided {leave : Leave} {enabled : Bool} {today : ℤ}
    (ordinary : Ordinary site world (.observe leave enabled today))
    (decided : decision ∈ world.decided site leave) :
    ∃ row : Row, row.toCaptured = decision.2 ∧
      (upsertOne site world leave enabled today).notices =
        (createTimeOffNotification site world decision.1 row).notices := by
  obtain ⟨rfl, due, untouched⟩ := ordinary
  unfold World.decided at decided
  unfold upsertOne
  cases mirrored : mirror site.shift leave with
  | none =>
      rw [mirrored] at decided
      exact absurd decided (Option.not_mem_none _)
  | some stored =>
      obtain ⟨state, captured⟩ := stored
      have notOver : ¬ captured.dateTo < today := not_lt.mpr (due _ mirrored)
      rw [mirrored] at decided
      cases stands : world.row with
      | none =>
          simp only [stands] at decided ⊢
          by_cases approved : state = .validate
          · rw [if_pos approved] at decided ⊢
            obtain rfl := Option.some.inj decided
            refine ⟨{ toCaptured := captured, state := state, localRecord := false
                      odooLeaveId := some site.leaveId }, rfl, ?_⟩
            · subst approved
              simp only [maybeNotifyResolution, if_true, resolutionKind]
              rw [if_neg]
              · rfl
              · simpa using notOver
          · rw [if_neg approved] at decided
            exact absurd decided (Option.not_mem_none _)
      | some existing =>
          obtain ⟨mirrors, uncancelled⟩ := untouched existing stands
          simp only [stands] at decided ⊢
          by_cases same : existing.state = state
          · rw [if_pos same] at decided
            exact absurd decided (Option.not_mem_none _)
          · rw [if_neg same] at decided ⊢
            obtain ⟨kind, resolved, rfl⟩ := Option.map_eq_some_iff.mp decided
            have changed : (existing.localRecord || unchanged existing state captured) = false := by
              simp [mirrors, unchanged, same]
            rw [changed]
            refine ⟨{ existing with toCaptured := captured, state := state }, rfl, ?_⟩
            simp only [maybeNotifyResolution, if_true, resolved]
            rw [if_neg Bool.false_ne_true, if_neg]
            · rfl
            · simpa [uncancelled] using notOver

/-- Notifications that an action adds. -/
structure Appends (site : Site) (world : World) (action : Action) (next : World)
    (added : List Notification) : Prop where
  notices : next.notices = world.notices.map (stamp action) ++ added
  le : world.nextId ≤ next.nextId
  fresh : ∀ notice ∈ added, notice.id = world.nextId ∧ world.nextId < next.nextId ∧
    notice.presentedAt = none ∧ notice.acknowledgedAt = none
  distinct : (added.map Notification.id).Nodup
  undecided : Undecided site world action → ofRequest site added = []

theorem exists_appends (took : step site world action = some next) :
    ∃ added, Appends site world action next added := by
  cases action with
  | observe leave enabled today =>
      obtain rfl := Option.some.inj took
      have unstamped : world.notices.map (stamp (.observe leave enabled today)) = world.notices :=
        List.map_id _
      rcases upsertOne_cases site world leave enabled today with
        ⟨same, sameId⟩ | ⟨decision, decided, row, -, raised, nextId⟩
      · refine ⟨[], ?_, sameId.ge, by simp, List.nodup_nil, fun _ => rfl⟩
        rw [same, unstamped, List.append_nil]
      · rcases createTimeOffNotification_notices site world decision.1 row with
          ⟨-, same⟩ | ⟨-, appended⟩
        · refine ⟨[], ?_, by omega, by simp, List.nodup_nil, fun _ => rfl⟩
          rw [raised, same, unstamped, List.append_nil]
        · refine ⟨[notification site world.nextId decision.1 row], ?_, by omega, ?_,
            List.nodup_singleton _, ?_⟩
          · rw [raised, appended, unstamped]
          · intro notice member
            obtain rfl := List.mem_singleton.mp member
            exact ⟨rfl, by omega, rfl, rfl⟩
          · intro undecided
            rw [Option.mem_def, undecided] at decided
            cases decided
  | signIn person now | acknowledge person ids now =>
      obtain rfl := Option.some.inj took
      exact ⟨[], (List.append_nil _).symm, le_rfl, by simp, List.nodup_nil, fun _ => rfl⟩
  | other notice =>
      by_cases own : notice.OfRequest site
      · rw [step, if_pos own] at took
        cases took
      · rw [step, if_neg own] at took
        obtain rfl := Option.some.inj took
        refine ⟨[{ notice with id := world.nextId, presentedAt := none, acknowledgedAt := none }],
          ?_, Nat.le_succ _, ?_, List.nodup_singleton _, ?_⟩
        · rw [show stamp (.other notice) = id from rfl, List.map_id]
        · intro added member
          obtain rfl := List.mem_singleton.mp member
          exact ⟨rfl, Nat.lt_succ_self _, rfl, rfl⟩
        · intro _
          refine List.filter_eq_nil_iff.mpr fun added member => ?_
          obtain rfl := List.mem_singleton.mp member
          exact fun listed => own (of_decide_eq_true listed)

/-! ## The table -/

/-- IDs are used once, and only what was shown is acknowledged. -/
structure World.Sound (world : World) : Prop where
  below : ∀ notice ∈ world.notices, notice.id < world.nextId
  distinct : (world.notices.map Notification.id).Nodup
  shown : ∀ notice ∈ world.notices, notice.presentedAt = none → notice.acknowledgedAt = none

theorem World.Sound.step (sound : world.Sound) (took : Notices.step site world action = some next) :
    next.Sound := by
  obtain ⟨added, appends⟩ := exists_appends took
  refine ⟨?_, ?_, ?_⟩
  · intro notice member
    rw [appends.notices, List.mem_append, List.mem_map] at member
    rcases member with ⟨before, member, rfl⟩ | member
    · rw [stamp_id]
      exact (sound.below before member).trans_le appends.le
    · obtain ⟨same, lt, -⟩ := appends.fresh notice member
      omega
  · rw [appends.notices, List.map_append, List.map_map]
    refine List.nodup_append.mpr ⟨?_, ?_, ?_⟩
    · rw [show Notification.id ∘ stamp action = Notification.id from funext (stamp_id action)]
      exact sound.distinct
    · exact appends.distinct
    · rintro _ first _ second rfl
      obtain ⟨before, member, same⟩ := List.mem_map.mp first
      obtain ⟨notice, new, isId⟩ := List.mem_map.mp second
      have below := sound.below before member
      have fresh := (appends.fresh notice new).1
      rw [Function.comp_apply, stamp_id] at same
      omega
  · intro notice member unshown
    rw [appends.notices, List.mem_append, List.mem_map] at member
    rcases member with ⟨before, member, rfl⟩ | member
    · have unshownBefore : before.presentedAt = none := by
        by_contra shown
        exact (stamped action before).presented shown unshown
      exact acknowledgedAt_stamp (sound.shown before member unshownBefore) (.inl unshownBefore)
    · exact (appends.fresh notice member).2.2.2

/-! ## From the decision to the sign-in -/

theorem mem_stamp (member : notice ∈ world.notices) (took : step site world action = some next) :
    stamp action notice ∈ next.notices := by
  obtain ⟨added, appends⟩ := exists_appends took
  rw [appends.notices]
  exact List.mem_append_left _ (List.mem_map_of_mem member)

theorem ofRequest_map_stamp (site : Site) (action : Action) (notices : List Notification) :
    ofRequest site (notices.map (stamp action)) = (ofRequest site notices).map (stamp action) := by
  unfold ofRequest
  rw [List.filter_map]
  congr 1
  exact List.filter_congr fun notice _ => decide_eq_decide.mpr (stamp_ofRequest action notice)

theorem getLast?_stamp (last : (ofRequest site world.notices).getLast? = some notice)
    (undecided : Undecided site world action) (took : step site world action = some next) :
    (ofRequest site next.notices).getLast? = some (stamp action notice) := by
  obtain ⟨added, appends⟩ := exists_appends took
  have same : ofRequest site next.notices = (ofRequest site world.notices).map (stamp action) := by
    rw [appends.notices, ofRequest, List.filter_append]
    change ofRequest site _ ++ ofRequest site added = _
    rw [appends.undecided undecided, List.append_nil, ofRequest_map_stamp]
  rw [same, List.getLast?_map, last, Option.map_some]

variable {reached : World} {notices : List Notification}

/-- A notification that is not acknowledged, and not shown or not acknowledged later, stays so until
a sign-in is answered. It keeps its place if the actions keep it. -/
theorem pending_run {place : World → Notification → Prop} {allowed : World → Action → Prop}
    (kept : ∀ world action next notice, place world notice → allowed world action →
      step site world action = some next → place next (stamp action notice)) {between : List Action}
    (stands : place world notice) (tells : Tells site decision notice)
    (unacknowledged : notice.acknowledgedAt = none)
    (unanswered : Unanswered decision.2.personOdooId between) (unshown : notice.presentedAt = none ∨
      ∀ ids now, Action.acknowledge decision.2.personOdooId ids now ∉ between)
    (permitted : Permitted (step site) allowed world between)
    (ran : run (step site) world between = some reached) :
    ∃ later, place reached later ∧ Tells site decision later ∧ later.acknowledgedAt = none := by
  induction between generalizing world notice with
  | nil =>
      obtain rfl := Option.some.inj ran
      exact ⟨notice, stands, tells, unacknowledged⟩
  | cons action rest ih =>
      obtain ⟨next, took, ran⟩ := Option.bind_eq_some_iff.mp ran
      have unacknowledgedNext : (stamp action notice).acknowledgedAt = none := by
        refine acknowledgedAt_stamp unacknowledged (unshown.imp_right fun none ids now same => ?_)
        rw [tells.person] at same
        exact none ids now (same ▸ List.mem_cons_self)
      have unansweredNext : Unanswered decision.2.personOdooId rest := by
        cases action with
        | signIn signed now => exact unanswered.2
        | observe leave enabled today | acknowledge person ids now
        | other notice => exact unanswered
      -- the first sign-in shows it, and no acknowledgement follows
      have unshownNext : (stamp action notice).presentedAt = none ∨
          ∀ ids now, Action.acknowledge decision.2.personOdooId ids now ∉ rest := by
        rcases unshown with unshown | none
        · by_cases signs : ∃ now, action = .signIn decision.2.personOdooId now
          · obtain ⟨now, rfl⟩ := signs
            exact .inr (unanswered.1 rfl)
          · refine .inl (presentedAt_stamp unshown fun now same => signs ⟨now, ?_⟩)
            rw [same, tells.person]
        · exact .inr fun ids now member => none ids now (List.mem_cons_of_mem _ member)
      exact ih (kept _ _ _ _ stands permitted.1 took) (tells.stamp action) unacknowledgedNext
        unansweredNext unshownNext (permitted.2 next took) ran

theorem permitted_true (site : Site) (world : World) (actions : List Action) :
    Permitted (step site) (fun _ _ => True) world actions := by
  induction actions generalizing world with
  | nil => trivial
  | cons action rest ih => exact ⟨trivial, fun next _ => ih next⟩

theorem getLast?_filter_concat {passes : Notification → Bool} (earlier : List Notification)
    (last : passes notice = true) :
    ((earlier ++ [notice]).filter passes).getLast? = some notice := by
  simp [List.filter_append, last]

/-- The notification of an observed decision is the last of the request, and nobody saw it. -/
theorem observed_last (sound : world.Sound) {leave : Leave} {enabled : Bool} {today : ℤ}
    (ordinary : Ordinary site world (.observe leave enabled today))
    (untold : Untold site world (.observe leave enabled today))
    (decided : decision ∈ world.decided site leave)
    (took : step site world (.observe leave enabled today) = some next) :
    ∃ notice, (ofRequest site next.notices).getLast? = some notice ∧ Tells site decision notice ∧
      notice.presentedAt = none ∧ notice.acknowledgedAt = none := by
  obtain rfl := Option.some.inj took
  obtain ⟨row, same, raised⟩ := upsertOne_decided ordinary decided
  rw [raised]
  rcases createTimeOffNotification_notices site world decision.1 row with
    ⟨⟨notice, member, kind⟩, kept⟩ | ⟨-, appended⟩
  · obtain ⟨unshown, tells, last⟩ := untold decision decided notice member kind
    exact ⟨notice, kept ▸ last, tells, unshown,
      sound.shown notice (List.mem_filter.mp member).1 unshown⟩
  · refine ⟨notification site world.nextId decision.1 row, ?_, ?_, rfl, rfl⟩
    · rw [appended]
      exact getLast?_filter_concat _ (decide_eq_true rfl)
    · exact ⟨rfl, rfl, congrArg Captured.personOdooId same,
        congrArg (fun captured : Captured => some captured.dateFrom) same,
        congrArg (fun captured : Captured => some captured.dateTo) same⟩

theorem mem_listUnacknowledged (member : notice ∈ notices) (tells : Tells site decision notice)
    (unacknowledged : notice.acknowledgedAt = none) :
    notice ∈ listUnacknowledged decision.2.personOdooId notices :=
  List.mem_filter.mpr ⟨member, decide_eq_true ⟨tells.person, unacknowledged⟩⟩

theorem getLast?_listUnacknowledged (last : (ofRequest site notices).getLast? = some notice)
    (tells : Tells site decision notice) (unacknowledged : notice.acknowledgedAt = none) :
    (ofRequest site (listUnacknowledged decision.2.personOdooId notices)).getLast? =
      some notice := by
  have swapped : ofRequest site (listUnacknowledged decision.2.personOdooId notices) =
      listUnacknowledged decision.2.personOdooId (ofRequest site notices) := by
    exact List.filter_comm _ _ _
  obtain ⟨earlier, same⟩ := List.getLast?_eq_some_iff.mp last
  rw [swapped, same]
  exact getLast?_filter_concat _ (decide_eq_true ⟨tells.person, unacknowledged⟩)

/-! ## Runs -/

theorem World.Sound.run {actions : List Action} (sound : world.Sound)
    (ran : Transition.run (Notices.step site) world actions = some reached) : reached.Sound := by
  induction actions generalizing world with
  | nil => exact Option.some.inj ran ▸ sound
  | cons action rest ih =>
      obtain ⟨next, took, ran⟩ := Option.bind_eq_some_iff.mp ran
      exact ih (sound.step took) ran

/-- What is acknowledged keeps its ID to itself and stays acknowledged. -/
theorem acknowledged_run {actions : List Action} {id : ℕ} (below : id < world.nextId)
    (acknowledged : ∀ notice ∈ world.notices, notice.id = id → notice.acknowledgedAt ≠ none)
    (ran : run (step site) world actions = some reached) :
    ∀ notice ∈ reached.notices, notice.id = id → notice.acknowledgedAt ≠ none := by
  induction actions generalizing world with
  | nil => exact Option.some.inj ran ▸ acknowledged
  | cons action rest ih =>
      obtain ⟨next, took, ran⟩ := Option.bind_eq_some_iff.mp ran
      obtain ⟨added, appends⟩ := exists_appends took
      refine ih (below.trans_le appends.le) (fun notice member same => ?_) ran
      rw [appends.notices, List.mem_append, List.mem_map] at member
      rcases member with ⟨before, member, rfl⟩ | member
      · rw [stamp_id] at same
        exact (stamped action before).acknowledged (acknowledged before member same)
      · have fresh := (appends.fresh notice member).1
        omega

theorem neverAgain {initial : World} (sound : initial.Sound) (actions : List Action) :
    NeverAgain site initial actions := by
  intro before between later _ world reachedWorld reached ran notice member acknowledged person shown
    listed same
  have soundWorld : world.Sound := sound.run reachedWorld
  obtain ⟨stands, unacknowledged⟩ := List.mem_filter.mp listed
  refine acknowledged_run (soundWorld.below notice member) (fun other otherMember otherSame => ?_)
    ran shown stands same (of_decide_eq_true unacknowledged).2
  rw [List.inj_on_of_nodup_map soundWorld.distinct otherMember member otherSame]
  exact acknowledged

/-- In a run of ordinary polls whose decisions were all untold, each is told at the next sign-in
that is answered, the latest as the last of its request, and nothing acknowledged is shown again. -/
theorem told_of_untold {initial : World} (sound : initial.Sound) {actions : List Action}
    (permitted : Permitted (step site)
      (fun world action => Ordinary site world action ∧ Untold site world action)
      initial actions) :
    Told site initial actions ∧ NeverAgain site initial actions := by
  refine ⟨?_, neverAgain sound actions⟩
  rintro before leave enabled today between later rfl world reachedWorld observed took reached ran
    decision decided unanswered
  obtain ⟨ordinary, untold⟩ := (permitted.of_append reachedWorld).1
  obtain ⟨notice, last, tells, unshown, unacknowledged⟩ :=
    observed_last (sound.run reachedWorld) ordinary untold decided took
  constructor
  · obtain ⟨shown, stands, tells, unacknowledged⟩ :=
      pending_run (fun _ _ _ _ member _ => mem_stamp member)
        (List.mem_of_mem_filter (List.mem_of_getLast? last)) tells unacknowledged unanswered
        (.inl unshown) (permitted_true site observed between) ran
    exact ⟨shown, mem_listUnacknowledged stands tells unacknowledged, tells⟩
  · intro undecided
    have keepsLast : ∀ world action next notice,
        (ofRequest site world.notices).getLast? = some notice → Undecided site world action →
          step site world action = some next →
            (ofRequest site next.notices).getLast? = some (stamp action notice) :=
      fun _ _ _ _ => getLast?_stamp
    obtain ⟨shown, stands, tells, unacknowledged⟩ :=
      pending_run keepsLast last tells unacknowledged unanswered (.inl unshown) undecided ran
    exact ⟨shown, tells, getLast?_listUnacknowledged stands tells unacknowledged⟩

/-! ## A decision that is reached again -/

instance (site : Site) (world : World) : DecidablePred (Ordinary site world)
  | .observe leave enabled today =>
      inferInstanceAs (Decidable (enabled = true ∧
        (∀ stored ∈ mirror site.shift leave, today ≤ stored.2.dateTo) ∧
          ∀ existing ∈ world.row, existing.localRecord = false ∧ existing.state ≠ .draftCancel))
  | .signIn _ _ => isTrue trivial
  | .acknowledge _ _ _ => isTrue trivial
  | .other _ => isTrue trivial

instance (site : Site) (world : World) : DecidablePred (Untold site world)
  | .observe leave _ _ =>
      inferInstanceAs (Decidable (∀ decision ∈ world.decided site leave,
        ∀ notice ∈ ofRequest site world.notices, notice.kind = .timeOff decision.1 →
          notice.presentedAt = none ∧ Tells site decision notice ∧
            (ofRequest site world.notices).getLast? = some notice))
  | .signIn _ _ => isTrue trivial
  | .acknowledge _ _ _ => isTrue trivial
  | .other _ => isTrue trivial

/-- Leave 70 of the first of July, mirrored by request 1. -/
def firstOfJuly : Site where
  shift := ⟨7, 31 / 2⟩
  requestId := 1
  leaveId := 70
  md := fun _ => "Jul 1"

/-- Employee 9 is off for the day, which is day 20635. -/
def dayOff (state : String) : Leave where
  state := state
  employeeId := some 9
  requestDateFrom := some 20635
  requestDateTo := some 20635
  requestUnitHours := false
  requestHourFrom := none
  requestHourTo := none
  numberOfDays := some 1
  localDayWindow := none

def nothingYet : World := ⟨none, [], 1⟩

theorem nothingYet_sound : nothingYet.Sound :=
  ⟨by simp [nothingYet], List.nodup_nil, by simp [nothingYet]⟩

/-- The leave is approved and the employee acknowledges it, then it is refused and that is
acknowledged too. -/
def approvedThenRefused : List Action :=
  [.observe (dayOff "confirm") true 20600, .observe (dayOff "validate") true 20601,
    .signIn 9 1, .acknowledge 9 [1] 2, .observe (dayOff "refuse") true 20602,
    .signIn 9 3, .acknowledge 9 [2] 4]

theorem runs_approvedThenRefused :
    (run (step firstOfJuly) nothingYet approvedThenRefused).isSome = true := by
  decide +kernel

def refusedWorld : World :=
  (run (step firstOfJuly) nothingYet approvedThenRefused).get runs_approvedThenRefused

/-- When it is approved once more, the employee is not told. -/
theorem approvedAgain :
    Permitted (step firstOfJuly) (Ordinary firstOfJuly) nothingYet
        (approvedThenRefused ++ [.observe (dayOff "validate") true 20603]) ∧
      ¬ (Told firstOfJuly nothingYet
            (approvedThenRefused ++ [.observe (dayOff "validate") true 20603]) ∧
          NeverAgain firstOfJuly nothingYet
            (approvedThenRefused ++ [.observe (dayOff "validate") true 20603])) := by
  refine ⟨by decide +kernel, fun holds => ?_⟩
  have decided : (Kind.approved, (⟨9, 20635, 20635, .fullDay, none, none⟩ : Captured)) ∈
      refusedWorld.decided firstOfJuly (dayOff "validate") := by decide +kernel
  obtain ⟨⟨notice, listed, tells⟩, -⟩ :=
    holds.1 approvedThenRefused (dayOff "validate") true 20603 [] [] rfl refusedWorld
      (Option.get_mem runs_approvedThenRefused) _ rfl _ rfl _ decided trivial
  have silent : listUnacknowledged 9
      (upsertOne firstOfJuly refusedWorld (dayOff "validate") true 20603).notices = [] := by
    decide +kernel
  exact absurd listed List.not_mem_nil

/-- A leave that is approved and then refused before the first sign-in. -/
theorem told_of_untold_twice :
    Told firstOfJuly nothingYet
        [.observe (dayOff "confirm") true 20600, .observe (dayOff "validate") true 20601,
          .observe (dayOff "refuse") true 20602, .signIn 9 1, .acknowledge 9 [1, 2] 2] ∧
      NeverAgain firstOfJuly nothingYet
        [.observe (dayOff "confirm") true 20600, .observe (dayOff "validate") true 20601,
          .observe (dayOff "refuse") true 20602, .signIn 9 1, .acknowledge 9 [1, 2] 2] :=
  told_of_untold nothingYet_sound (by decide +kernel)

end PlantManager.TimeOff.Notices
